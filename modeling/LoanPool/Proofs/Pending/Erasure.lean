import LoanPool.Proofs.Pending.Filing

/-!
# Lazy pruning

A request whose caller has left stays in the queue until it is come across. Nobody can tell from the
answers: they are those of a queue that lets go of a request the moment its caller leaves. The two
are kept in step by an erasure. What is left of the lazy queue without the requests of those who
have left is the prompt one, after every history in which no two requests have the same name.
-/
namespace LoanPool.Pending

/-- A queue that lets go of a request the moment its caller leaves. -/
structure Prompt where
  /-- Oldest first. -/
  waiting : List RequestId := []
  limit : Nat
deriving DecidableEq, Repr

namespace Prompt

def step (q : Prompt) : Op → Answer × Prompt
  | .push id => (.nothing, { q with waiting := q.waiting ++ [id] })
  | .abandon id => (.nothing, { q with waiting := q.waiting.erase id })
  | .isFull => (.flag (q.limit ≤ q.waiting.length), q)
  | .pop =>
    match q.waiting with
    | [] => (.nothing, q)
    | id :: rest => (.request id, { q with waiting := rest })
  | .remove id => (.flag (id ∈ q.waiting), { q with waiting := q.waiting.erase id })
  | .drain => (.requests q.waiting, { q with waiting := [] })
  -- Nothing else brings a request into the queue or out of it.
  | _ => (.nothing, q)

def run (q : Prompt) (ops : List Op) : Prompt :=
  ops.foldl (fun q op => (q.step op).2) q

end Prompt

namespace Session

def run (s : Session) (ops : List Op) : Session :=
  ops.foldl (fun s op => (s.step op).2) s

def waiting (s : Session) : List Request :=
  s.queue.requests.filter fun r => !s.isGone r.ticket

/-- These requests are let go: their callers have left. No alarm is left for any of them, unless its
deadline was dealt with before; and every other alarm is left. -/
structure LetsGo (ops : List Op) (s : Session) (gone : List Request) (s' : Session) : Prop where
  left : ∀ r ∈ gone, s.isGone r.ticket = true
  silent : ∀ r ∈ gone, .expire r.id ∉ ops → ∀ a ∈ s'.clock.alarms, a.what.2 ≠ r.id
  others : ∀ a ∈ s.clock.alarms, (∀ r ∈ gone, a.what.2 ≠ r.id) → a ∈ s'.clock.alarms
  fewer : s'.clock.alarms.Sublist s.clock.alarms

variable {s s' : Session} {q q' : Prompt} {r : Request} {id : RequestId} {done : List Op} {op : Op}

/-! ### The two queues in step -/

/-- The erasure of the lazy queue is the prompt one. -/
structure InStep (done : List Op) (s : Session) (q : Prompt) : Prop where
  filed : Filed done s
  limit : q.limit = s.queue.limit
  waiting : q.waiting = s.waiting.map (·.id)

theorem inStep_start (config : Config) (limit : Nat) :
    InStep [] (start config limit) { limit } where
  filed := filed_start config limit
  limit := rfl
  waiting := rfl

/-- The erasure depends on the names in the queue and on the callers alone. -/
theorem names_waiting (s : Session) :
    s.waiting.map (·.id) = (s.queue.keys.filter fun k => !s.isGone k.2).map (·.1) := by
  rw [Queue.keys, List.filter_map, List.map_map, waiting]
  rfl

theorem waiting_congr (keys : s'.queue.keys = s.queue.keys) (callers : s'.callers = s.callers) :
    s'.waiting.map (·.id) = s.waiting.map (·.id) := by
  rw [names_waiting, names_waiting, keys, isGone_congr callers]

theorem inStep_of_same (i : InStep done s q) (none_new : op.pushes? = none)
    (queue : s'.queue = s.queue) (callers : s'.callers = s.callers)
    (alarms : s'.clock.alarms ⊆ s.clock.alarms) (letters : s'.letters.length = s.letters.length) :
    InStep (done ++ [op]) s' q where
  filed := by
    refine filed_of_less i.filed none_new ?_ ?_ alarms letters
    · rw [queue]
    · rw [callers]
      exact List.Subset.refl _
  limit := by rw [queue, i.limit]
  waiting := by rw [i.waiting, waiting_congr (congrArg Queue.keys queue) callers]

theorem inStep_of_changed {changed : Request} (i : InStep done s q) (none_new : op.pushes? = none)
    (queued : s.queue.find? id = some r) (key : changed.key = r.key)
    (timer : changed.timer = r.timer ∨ changed.timer = none ∧
      ∀ a ∈ s'.clock.alarms, a.what.2 = id → .expire id ∈ done ++ [op])
    (queue : s'.queue = s.queue.replace id changed) (callers : s'.callers = s.callers)
    (alarms : s'.clock.alarms ⊆ s.clock.alarms) (letters : s'.letters.length = s.letters.length) :
    InStep (done ++ [op]) s' q where
  filed := filed_of_changed i.filed none_new queued key timer queue callers alarms letters
  limit := by
    rw [queue, i.limit]
    rfl
  waiting := by
    have keys : s'.queue.keys = s.queue.keys := by rw [queue, keys_replace queued key]
    rw [i.waiting, waiting_congr keys callers]

theorem inStep_push (i : InStep done s q) (fresh : id ∉ pushed done) :
    InStep (done ++ [.push id]) (s.push id).2 { q with waiting := q.waiting ++ [id] } := by
  obtain ⟨r, rfl, arrives⟩ := arrives_push (absent_of_fresh i.filed fresh)
  have filed := filed_of_arrives i.filed fresh arrives
  have requests : (s.push r.id).2.queue.requests = s.queue.requests ++ [r] := by
    rw [arrives.queue]
    rfl
  refine ⟨filed, ?_, ?_⟩
  · rw [arrives.queue]
    exact i.limit
  · -- The new caller waits for the new request, and for no other.
    have old : ∀ r' ∈ s.queue.requests,
        (s.push r.id).2.isGone r'.ticket = s.isGone r'.ticket := by
      intro r' queued
      have still : r' ∈ (s.push r.id).2.queue.requests := by
        rw [requests]
        exact List.mem_append_left _ queued
      have unlike : r.id ≠ r'.id := by
        intro same
        exact fresh (same ▸ (i.filed.tickets r' queued).1)
      rw [isGone_of_filed filed still, isGone_of_filed i.filed queued, arrives.callers]
      simp [unlike]
    have new : (s.push r.id).2.isGone r.ticket = false := by
      rw [isGone, arrives.callers]
      simp
    have erased : (s.push r.id).2.waiting = s.waiting ++ [r] := by
      rw [waiting, requests, List.filter_append, waiting]
      congr 1
      · exact List.filter_congr fun r' queued => by rw [old r' queued]
      · rw [List.filter_singleton, new]
        rfl
    rw [erased, List.map_append, i.waiting]
    rfl

theorem eraseP_named {rs : List Request} (distinct : (rs.map (·.id)).Nodup) (id : RequestId) :
    rs.eraseP (·.id = id) = rs.filter (·.id ≠ id) := by
  induction rs with
  | nil => rfl
  | cons first rest ih =>
    rw [List.map_cons, List.nodup_cons] at distinct
    by_cases here : first.id = id
    · have others : ∀ r ∈ rest, r.id ≠ id := by
        intro r member same
        exact distinct.1 (here ▸ same ▸ List.mem_map_of_mem member)
      rw [List.eraseP_cons_of_pos (by simpa using here),
        List.filter_cons_of_neg (by simpa using here)]
      exact (List.filter_eq_self.mpr fun r member => decide_eq_true (others r member)).symm
    · rw [List.eraseP_cons_of_neg (by simpa using here),
        List.filter_cons_of_pos (by simpa using here), ih distinct.2]

theorem erase_names {rs : List Request} (distinct : (rs.map (·.id)).Nodup) (id : RequestId) :
    (rs.map (·.id)).erase id = (rs.filter (·.id ≠ id)).map (·.id) := by
  rw [← eraseP_named distinct, List.erase_eq_eraseP, List.eraseP_map]
  congr 2
  funext r
  rw [Function.comp, Bool.eq_iff_iff, beq_iff_eq, decide_eq_true_eq]
  exact eq_comm

theorem nodup_waiting (filed : Filed done s) : (s.waiting.map (·.id)).Nodup :=
  filed.distinct.sublist (List.filter_sublist.map _)

theorem inStep_leave (i : InStep done s q) (id : RequestId) :
    InStep (done ++ [.abandon id]) (s.leave id).2.2 { q with waiting := q.waiting.erase id } := by
  rw [session_leave]
  have filed : Filed (done ++ [.abandon id]) { s with callers := s.callers.filter (·.1 ≠ id) } :=
    filed_of_less i.filed rfl (List.Sublist.refl _) (List.filter_subset_self _)
      (List.Subset.refl _) rfl
  refine ⟨filed, i.limit, ?_⟩
  have left : ∀ r ∈ s.queue.requests,
      (!isGone { s with callers := s.callers.filter (·.1 ≠ id) } r.ticket) =
        (decide (r.id ≠ id) && !s.isGone r.ticket) := by
    intro r queued
    rw [isGone_of_filed filed queued, isGone_of_filed i.filed queued, Bool.not_not, Bool.not_not,
      Bool.eq_iff_iff]
    simp only [List.any_filter, List.any_eq_true, Bool.and_eq_true, decide_eq_true_eq]
    constructor
    · rintro ⟨c, member, other, same⟩
      exact ⟨same ▸ other, c, member, same⟩
    · rintro ⟨other, c, member, same⟩
      exact ⟨c, member, same ▸ other, same⟩
  have erased : waiting { s with callers := s.callers.filter (·.1 ≠ id) } =
      s.waiting.filter (·.id ≠ id) := by
    rw [waiting, waiting, List.filter_filter]
    exact List.filter_congr left
  rw [erased, i.waiting]
  exact erase_names (nodup_waiting i.filed) id

/-- What is let go does not show. -/
theorem inStep_pop (i : InStep done s q) :
    InStep (done ++ [.pop]) s.pop.2 (q.step .pop).2 ∧ s.pop.1.answer = (q.step .pop).1 := by
  have popping := pop_popping s
  generalize s.pop = result at popping ⊢
  cases popping with
  | @found gone rest r split left waits =>
    have erased : s.waiting = r :: rest.filter fun r => !s.isGone r.ticket := by
      have none_left : gone.filter (fun r => !s.isGone r.ticket) = [] := by
        apply List.filter_eq_nil_iff.mpr
        intro r' member
        rw [left r' member]
        exact Bool.false_ne_true
      rw [waiting, split, List.filter_append, none_left, List.nil_append,
        List.filter_cons_of_pos (by rw [waits]; rfl)]
    have told : q.step .pop = (.request r.id,
        { q with waiting := (rest.filter fun r => !s.isGone r.ticket).map (·.id) }) := by
      simp only [Prompt.step, i.waiting, erased, List.map_cons]
    obtain ⟨queue, callers, clock, letters⟩ :=
      aside_putAside { s.silence gone with queue := { s.queue with requests := rest } } r
    rw [told]
    refine ⟨⟨?_, ?_, ?_⟩, rfl⟩
    · refine filed_of_less i.filed rfl ?_ ?_ ?_ letters
      · rw [queue, split]
        exact (List.sublist_cons_self _ _).trans (List.sublist_append_right _ _)
      · rw [callers]
        exact List.Subset.refl _
      · rw [clock]
        exact List.filter_sublist.subset
    · rw [queue]
      exact i.limit
    · rw [waiting, isGone_congr callers, queue]
      rfl
  | nobody left =>
    have erased : s.waiting = [] := by
      apply List.filter_eq_nil_iff.mpr
      intro r member
      rw [left r member]
      exact Bool.false_ne_true
    have empty : q.waiting = [] := by rw [i.waiting, erased, List.map_nil]
    have told : q.step .pop = (.nothing, q) := by simp only [Prompt.step, empty]
    rw [told]
    refine ⟨⟨?_, i.limit, empty⟩, rfl⟩
    exact filed_of_less i.filed rfl (List.nil_sublist _) (List.Subset.refl _)
      List.filter_sublist.subset rfl

/-- Nor does what is pruned. -/
theorem inStep_prune (i : InStep done s q) :
    InStep (done ++ [.isFull]) s.prune q ∧
      s.prune.queue.isFull = decide (q.limit ≤ q.waiting.length) := by
  have kept : s.prune.queue.requests = s.waiting := by
    rw [prune_eq]
    rfl
  have erased : s.prune.waiting = s.waiting := by
    have callers : s.prune.callers = s.callers := by
      rw [prune_eq]
      rfl
    rw [waiting, isGone_congr callers, kept, waiting, List.filter_filter]
    exact List.filter_congr fun _ _ => Bool.and_self _
  have limit : q.limit = s.prune.queue.limit := by
    rw [prune_eq]
    exact i.limit
  refine ⟨⟨?_, limit, ?_⟩, ?_⟩
  · rw [prune_eq]
    exact filed_of_less i.filed rfl List.filter_sublist (List.Subset.refl _)
      List.filter_sublist.subset rfl
  · rw [erased, i.waiting]
  · rw [Queue.isFull, kept, limit, i.waiting, List.length_map]

theorem inStep_remove (i : InStep done s q) (id : RequestId) :
    InStep (done ++ [.remove id]) (s.step (.remove id)).2
      { q with waiting := q.waiting.erase id } := by
  simp only [step]
  cases removed : s.queue.remove? id with
  | none =>
    have absent : id ∉ q.waiting := by
      intro member
      rw [i.waiting] at member
      obtain ⟨r, waits, named⟩ := List.mem_map.mp member
      rw [Queue.remove?, Option.map_eq_none_iff, Queue.find?, List.find?_eq_none] at removed
      exact removed r (List.mem_of_mem_filter waits) (decide_eq_true named)
    rw [List.erase_of_not_mem absent]
    exact inStep_of_same i rfl rfl rfl (List.Subset.refl _) rfl
  | some found =>
    obtain ⟨r, rest⟩ := found
    obtain ⟨queue, callers, clock, letters⟩ := aside_putAside { s with queue := rest } r
    obtain ⟨r', queued, eq⟩ := Option.map_eq_some_iff.mp removed
    cases eq
    have erased : ({ s with queue := { s.queue with
        requests := s.queue.requests.eraseP (·.id = id) } }.putAside r).waiting =
        s.waiting.filter (·.id ≠ id) := by
      rw [waiting, isGone_congr callers, queue, eraseP_named i.filed.distinct, waiting,
        List.filter_filter, List.filter_filter]
      exact List.filter_congr fun _ _ => Bool.and_comm _ _
    refine ⟨?_, ?_, ?_⟩
    · refine filed_of_less i.filed rfl ?_ ?_ ?_ letters
      · rw [queue]
        exact List.eraseP_sublist
      · rw [callers]
        exact List.Subset.refl _
      · rw [clock]
        exact List.Subset.refl _
    · rw [queue]
      exact i.limit
    · rw [erased, i.waiting]
      exact erase_names (nodup_waiting i.filed) id

theorem inStep_drain (i : InStep done s q) :
    InStep (done ++ [.drain]) (s.step .drain).2 { q with waiting := [] } := by
  obtain ⟨queue, callers, clock, letters⟩ :=
    aside_putAll { s with queue := { s.queue with requests := [] } } s.queue.requests
  simp only [step]
  refine ⟨?_, ?_, ?_⟩
  · refine filed_of_less i.filed rfl ?_ ?_ ?_ letters
    · rw [queue]
      exact List.nil_sublist _
    · rw [callers]
      exact List.Subset.refl _
    · rw [clock]
      exact List.Subset.refl _
  · rw [queue]
    exact i.limit
  · rw [waiting, queue]
    rfl

theorem inStep_onQueued {f : Request → Answer × Request} {disarming : Bool}
    (i : InStep done s q) (none_new : op.pushes? = none) (id : RequestId)
    (key : ∀ r, (f r).2.key = r.key)
    (timer : ∀ r, (f r).2.timer = r.timer ∨
      (f r).2.timer = none ∧ (disarming = true ∨ op = .expire id)) :
    InStep (done ++ [op]) (s.onQueued id f disarming).2 q := by
  rw [onQueued]
  cases queued : s.queue.find? id with
  | none => exact inStep_of_same i none_new rfl rfl (List.Subset.refl _) rfl
  | some r =>
    obtain ⟨member, named⟩ := Queue.mem_of_find? queued
    have fewer : (s.disarm r).clock.alarms ⊆ s.clock.alarms := List.filter_sublist.subset
    cases disarming with
    | false =>
      refine inStep_of_changed i none_new queued (key r) ?_ rfl rfl (List.Subset.refl _) rfl
      refine (timer r).imp_right fun ⟨lost, why⟩ => ⟨lost, fun _ _ _ => ?_⟩
      rcases why with no | rfl
      · cases no
      · exact List.mem_concat_self
    | true =>
      refine inStep_of_changed i none_new queued (key r) ?_ rfl rfl fewer rfl
      refine (timer r).imp_right fun ⟨lost, _⟩ => ⟨lost, fun a left same => ?_⟩
      -- The alarm of its timer is stopped, and it has no other.
      by_contra early
      have set := i.filed.running a (fewer left) r member (same.trans named.symm)
        (named ▸ not_expired early)
      have stopped : r.timer ≠ some a.what.1 := by simpa using List.of_mem_filter left
      exact stopped set

theorem inStep_settle {f : Request → Session → Report × Session} (i : InStep done s q)
    (none_new : op.pushes? = none) (id : RequestId) (aside : ∀ r s, Aside s (f r s).2) :
    InStep (done ++ [op]) (s.settle id f).2 q := by
  obtain ⟨queue, callers, alarms, letters⟩ := aside_settle aside s id
  exact inStep_of_same i none_new queue callers alarms letters

/-- An operation keeps the two queues in step, if it brings no name for a second time. -/
theorem inStep_step (i : InStep done s q) (op : Op) (fresh : ∀ id ∈ op.pushes?, id ∉ pushed done) :
    InStep (done ++ [op]) (s.step op).2 (q.step op).2 := by
  cases op with
  | push id => exact inStep_push i (fresh id rfl)
  | abandon id => exact inStep_leave i id
  | isFull => exact (inStep_prune i).1
  | pop => exact (inStep_pop i).1
  | remove id => exact inStep_remove i id
  | drain => exact inStep_drain i
  | get id => exact inStep_onQueued i rfl id (fun _ => rfl) fun _ => .inl rfl
  | openOverflow id => exact inStep_onQueued i rfl id (fun _ => rfl) fun _ => .inl rfl
  | expire id =>
    exact inStep_onQueued i rfl id (fun r => key_expire s.config r) fun r =>
      .inr ⟨timer_expire s.config r, .inr rfl⟩
  | disarm id => exact inStep_onQueued i rfl id (fun _ => rfl) fun _ => .inr ⟨rfl, .inl rfl⟩
  | fulfil id conn settling =>
    refine inStep_settle i rfl id fun r s => ?_
    split
    · split <;> exact ⟨rfl, rfl, rfl, rfl⟩
    · exact aside_setLetter s _ _
  | timeOut id after => exact inStep_settle i rfl id fun r s => aside_setLetter s _ _
  | fail id e => exact inStep_settle i rfl id fun r s => aside_setLetter s _ _
  | read id =>
    have aside : Aside s (s.step (.read id)).2 := by
      simp only [step]
      split
      · exact ⟨rfl, rfl, rfl, rfl⟩
      · split
        · exact ⟨rfl, rfl, rfl, rfl⟩
        · exact ⟨rfl, rfl, rfl, rfl⟩
        · exact aside_setLetter s _ _
        · exact aside_setLetter s _ _
    refine inStep_of_same i rfl aside.queue aside.callers ?_ aside.letters
    rw [aside.clock]
    exact List.Subset.refl _
  | advance ms => exact inStep_of_same i rfl rfl rfl List.filter_sublist.subset rfl

theorem fresh_of_nodup {rest : List Op} (distinct : (pushed (done ++ op :: rest)).Nodup) :
    ∀ id ∈ op.pushes?, id ∉ pushed done := by
  intro id new before
  rw [List.append_cons, pushed, List.filterMap_append, ← pushed, pushed_concat, new] at distinct
  have apart := (List.nodup_append.mp (List.nodup_append.mp distinct).1).2.2
  exact apart id before id (List.mem_singleton_self id) rfl

theorem inStep_run {ops : List Op} (i : InStep done s q) (distinct : (pushed (done ++ ops)).Nodup) :
    InStep (done ++ ops) (s.run ops) (q.run ops) := by
  induction ops generalizing done s q with
  | nil =>
    rw [List.append_nil]
    exact i
  | cons op rest ih =>
    have next := inStep_step i op (fresh_of_nodup distinct)
    rw [List.append_cons] at distinct ⊢
    exact ih next distinct

/-! ### What is let go -/

theorem letsGo_silence {gone : List Request} (filed : Filed done s)
    (queued : ∀ r ∈ gone, r ∈ s.queue.requests) (left : ∀ r ∈ gone, s.isGone r.ticket = true)
    (clock : s'.clock = (s.silence gone).clock) : LetsGo done s gone s' where
  left := left
  silent := by
    intro r member early a still same
    rw [clock] at still
    have sounding := List.mem_of_mem_filter still
    have set := filed.running a sounding r (queued r member) same early
    have stopped : ∀ r ∈ gone, r.timer ≠ some a.what.1 := by
      simpa using List.of_mem_filter still
    exact stopped r member set
  others := by
    intro a sounding unlike
    rw [clock]
    refine List.mem_filter.mpr ⟨sounding, ?_⟩
    rw [Bool.not_eq_true', List.any_eq_false]
    intro r member set
    have own := filed.timers r (queued r member) a.what.1 (of_decide_eq_true set)
    exact unlike r member ((filed.alarms a sounding).eq own)
  fewer := by
    rw [clock]
    exact List.filter_sublist

/-- A pop lets go of those before the first request whose caller waits, and puts that one aside. -/
theorem letsGo_pop (filed : Filed done s) :
    ∃ gone rest, ∃ found : Option Request,
      s.queue.requests = gone ++ (found.toList ++ rest) ∧ s.pop.2.queue.requests = rest ∧
        LetsGo done s gone s.pop.2 ∧ (found = none → rest = []) ∧
        ∀ r ∈ found, r ∈ s.waiting ∧ s.pop.1.answer = .request r.id ∧
          s.pop.2.held.getLast? = some r := by
  have popping := pop_popping s
  generalize s.pop = result at popping ⊢
  cases popping with
  | @found gone rest r split left waits =>
    let taken : Session := { s.silence gone with queue := { s.queue with requests := rest } }
    have aside := aside_putAside taken r
    have queued : ∀ r ∈ gone, r ∈ s.queue.requests := by
      intro r member
      rw [split]
      exact List.mem_append_left _ member
    have here : r ∈ s.queue.requests := by
      rw [split]
      exact List.mem_append_right _ List.mem_cons_self
    refine ⟨gone, rest, some r, split, ?_, letsGo_silence filed queued left aside.clock, nofun, ?_⟩
    · rw [aside.queue]
    · rintro r' ⟨rfl⟩
      exact ⟨List.mem_filter.mpr ⟨here, by rw [waits]; rfl⟩, rfl, held_putAside taken r⟩
  | nobody left =>
    refine ⟨s.queue.requests, [], none, ?_, rfl, ?_, fun _ => rfl, ?_⟩
    · simp
    · exact letsGo_silence filed (fun r member => member) left rfl
    · intro r none_found
      cases none_found

/-- A request whose caller waits is found by its name, and no other is touched. -/
theorem remove_of_waiting (filed : Filed done s) (waits : r ∈ s.waiting) :
    (s.step (.remove r.id)).1.answer = .flag true ∧
      (s.step (.remove r.id)).2.held.getLast? = some r ∧
      ∃ front back, s.queue.requests = front ++ r :: back ∧
        (s.step (.remove r.id)).2.queue.requests = front ++ back := by
  have queued : r ∈ s.queue.requests := List.mem_of_mem_filter waits
  obtain ⟨front, back, split, before, -⟩ := Keyed.split filed.distinct queued
  have found : s.queue.find? r.id = some r := Keyed.find?_of_mem filed.distinct queued
  have rest : s.queue.requests.eraseP (·.id = r.id) = front ++ back := by
    have unlike : ∀ x ∈ front, ¬decide (x.id = r.id) = true := by simpa using before
    rw [split, List.eraseP_append_right _ unlike, List.eraseP_cons_of_pos (by simp)]
  let taken : Session := { s with queue := { s.queue with requests := front ++ back } }
  have eq : s.step (.remove r.id) = ({ answer := .flag true }, taken.putAside r) := by
    simp only [step, Queue.remove?, found, Option.map_some, rest, taken]
  rw [eq]
  refine ⟨rfl, held_putAside taken r, front, back, split, ?_⟩
  rw [(aside_putAside taken r).queue]

/-- Lazy pruning does not show. After every history without two requests of one name, the lazy queue
without those who have left is the prompt one, so a pop finds the same request in both, and both
find the queue full or neither does. What a pop or an admission lets go is requests of callers that
have left, each with its timer stopped; and a request whose caller waits is found by its name, and
leaves the others as they are. -/
theorem pruning_unseen (config : Config) (limit : Nat) (ops : List Op)
    (distinct : (pushed ops).Nodup) :
    let s := (start config limit).run ops
    let q := Prompt.run { limit } ops
    q.waiting = s.waiting.map (·.id) ∧
      (s.step .pop).1.answer = (q.step .pop).1 ∧
      (s.step .isFull).1.answer = (q.step .isFull).1 ∧
      (∃ gone rest, ∃ found : Option Request,
        s.queue.requests = gone ++ (found.toList ++ rest) ∧
          (s.step .pop).2.queue.requests = rest ∧ LetsGo ops s gone (s.step .pop).2 ∧
          (found = none → rest = []) ∧
          ∀ r ∈ found, r ∈ s.waiting ∧ (s.step .pop).1.answer = .request r.id ∧
            (s.step .pop).2.held.getLast? = some r) ∧
      ((s.step .isFull).2.queue.requests = s.waiting ∧
        LetsGo ops s (s.queue.abandoned s.isGone) (s.step .isFull).2) ∧
      ∀ r ∈ s.waiting,
        (s.step (.remove r.id)).1.answer = .flag true ∧ (q.step (.remove r.id)).1 = .flag true ∧
          (s.step (.remove r.id)).2.held.getLast? = some r ∧
          ∃ front back, s.queue.requests = front ++ r :: back ∧
            (s.step (.remove r.id)).2.queue.requests = front ++ back := by
  intro s q
  have i : InStep ops s q := inStep_run (inStep_start config limit) distinct
  refine ⟨i.waiting, (inStep_pop i).2, ?_, ?_, ⟨?_, ?_⟩, ?_⟩
  · exact congrArg Answer.flag (inStep_prune i).2
  · exact letsGo_pop i.filed
  · simp only [step, prune_eq]
    rfl
  · refine letsGo_silence i.filed (fun r member => List.mem_of_mem_filter member)
      (fun r member => by simpa using List.of_mem_filter member) ?_
    simp only [step, prune_eq]
  · intro r waits
    obtain ⟨told, aside, rest⟩ := remove_of_waiting i.filed waits
    have known : r.id ∈ q.waiting := by
      rw [i.waiting]
      exact List.mem_map_of_mem waits
    exact ⟨told, congrArg Answer.flag (decide_eq_true known), aside, rest⟩

/-- Of four requests the first and the last have been deserted. -/
def thinned : List Op :=
  [.push ⟨1⟩, .push ⟨2⟩, .abandon ⟨1⟩, .push ⟨3⟩, .advance 7, .push ⟨4⟩, .abandon ⟨4⟩]

theorem unseen_of_thinned :
    let s := (start { acquireTimeoutMs := 50, timeoutAction := .fail } 3).run thinned
    (pushed thinned).Nodup ∧ s.queue.requests.length = 4 ∧
      (s.step .pop).1.answer = .request ⟨2⟩ ∧ (s.step .isFull).1.answer = .flag false ∧
      (∀ a ∈ (s.step .isFull).2.clock.alarms, a.what.2 ≠ ⟨4⟩) ∧
      (s.step (.remove ⟨3⟩)).1.answer = .flag true := by
  intro s
  have distinct : (pushed thinned).Nodup := by decide
  obtain ⟨-, popped, admitted, -, ⟨-, pruned⟩, removed⟩ :=
    pruning_unseen { acquireTimeoutMs := 50, timeoutAction := .fail } 3 thinned distinct
  have deserted : ⟨⟨4⟩, ⟨3⟩, some ⟨3⟩, false⟩ ∈ s.queue.abandoned s.isGone := by decide
  have waits : ⟨⟨3⟩, ⟨2⟩, some ⟨2⟩, false⟩ ∈ s.waiting := by decide
  refine ⟨distinct, by decide, popped.trans (by decide), admitted.trans (by decide), ?_, ?_⟩
  · exact pruned.silent _ deserted (by decide)
  · exact (removed _ waits).1

end Session
end LoanPool.Pending
