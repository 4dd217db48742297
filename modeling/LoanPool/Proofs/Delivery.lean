import LoanPool.Proofs.Unfolding

/-!
# Deliveries

What comes of a connection that is brought to callers. It is passed over those who have left, and
then somebody takes it, or its hook refuses and it is closed, or nobody is left and it is put away.
Each outcome is told by what is added to the log, and by the pool that is left.
-/
namespace LoanPool
open Pending (Request)

/-- Whoever has left stays away, and a pool that nothing holds on to is lost until it starts some
work. -/
structure Surroundings.Lasting (w : Surroundings) : Prop where
  gone : ∀ log more k, w.gone log k = true → w.gone (log ++ more) k = true
  lost : ∀ log e, w.reachable log = false → e.starts = [] → w.reachable (log ++ [e]) = false

theorem Site.Course.lasting {now : Nat} {s : Site} (course : Course now s) :
    (surroundings course.amid).Lasting where
  gone := by
    intro log more k left
    simp only [surroundings, decide_eq_true_eq] at left ⊢
    exact course.abandoned_append left more
  lost _ _ := course.lost_append

def stops (rs : List Request) : List Effect :=
  (rs.filterMap (·.timer)).map .disarm

def Pending.Request.farewell (r : Request) (cause : PoolError) : List Effect :=
  stops [r] ++ [.answer r.ticket (.failed cause)]

theorem stops_append (rs rs' : List Request) : stops (rs ++ rs') = stops rs ++ stops rs' := by
  simp [stops]

/-- A connection is passed over a caller that has left: the hook may have been called before. -/
def Effect.PassesBy (serial : Serial) : Effect → Prop
  | .disarm _ => True
  | .hook h serial' refusal => h = .acquired ∧ serial' = serial ∧ refusal = none
  | _ => False

/-- What may be done when a connection is brought to callers: it is offered to some, and lent or
closed, and the one for whom it is refused is told. -/
def Effect.Delivers (serial : Serial) : Effect → Prop
  | .disarm _ => True
  | .hook h serial' _ => h = .acquired ∧ serial' = serial
  | .close serial' => serial' = serial
  | .answer _ (.loan _ serial') => serial' = serial
  | .answer _ (.failed (.observer _)) => True
  | _ => False

theorem delivers_of_passesBy {e : Effect} {serial : Serial} (passes : e.PassesBy serial) :
    e.Delivers serial := by
  cases e with
  | disarm timer => trivial
  | hook h serial' refusal => exact ⟨passes.1, passes.2.1⟩
  | _ => exact passes.elim

theorem passesBy_of_stops {rs : List Request} {serial : Serial} :
    ∀ e ∈ stops rs, e.PassesBy serial := by
  intro e member
  obtain ⟨timer, -, rfl⟩ := List.mem_map.mp member
  trivial

namespace Turn
variable {w : Surroundings} {t t' t'' : Turn} {es es' : List Effect} {id : ConnId}
  {serial : Serial} {r : Request}

/-! ### What is added to the log -/

def Adds (t : Turn) (es : List Effect) (t' : Turn) : Prop :=
  ∃ more, t'.log = t.log ++ more ∧ more.map (·.effect) = es

theorem adds_refl (t : Turn) : t.Adds [] t :=
  ⟨[], (List.append_nil _).symm, rfl⟩

theorem Adds.trans (first : t.Adds es t') (then_ : t'.Adds es' t'') : t.Adds (es ++ es') t'' := by
  obtain ⟨more, log, rfl⟩ := first
  obtain ⟨more', log', rfl⟩ := then_
  exact ⟨more ++ more', by rw [log', log, List.append_assoc], List.map_append⟩

theorem Adds.effects (adds : t.Adds es t') : t'.effects = t.effects ++ es := by
  obtain ⟨more, log, rfl⟩ := adds
  rw [Turn.effects, log, List.map_append]
  rfl

/-- What held of all effects still holds if it holds of those that were added. -/
theorem Adds.forall {P : Effect → Prop} (adds : t.Adds es t') (before : ∀ e ∈ t.effects, P e)
    (added : ∀ e ∈ es, P e) : ∀ e ∈ t'.effects, P e := by
  rw [adds.effects]
  exact List.forall_mem_append.mpr ⟨before, added⟩

theorem adds_emit (t : Turn) (e : Effect) : t.Adds [e] (t.emit e) :=
  ⟨[_], rfl, rfl⟩

theorem adds_disarm (t : Turn) (r : Request) : t.Adds (stops [r]) (t.disarm r) := by
  simp only [disarm]
  split
  · next timer armed =>
    rw [show stops [r] = [.disarm timer] by simp [stops, armed]]
    exact adds_emit t _
  · next unarmed =>
    rw [show stops [r] = [] by simp [stops, unarmed]]
    exact adds_refl t

theorem adds_disarmAll (t : Turn) (rs : List Request) : t.Adds (stops rs) (t.disarmAll rs) := by
  induction rs generalizing t with
  | nil => exact adds_refl t
  | cons r rest ih =>
    rw [show r :: rest = [r] ++ rest from rfl, stops_append]
    exact (adds_disarm t r).trans (ih (t.disarm r))

theorem adds_fail (t : Turn) (r : Request) (cause : PoolError) :
    t.Adds (r.farewell cause) (t.fail r cause) :=
  (adds_disarm t r).trans (adds_emit _ _)

theorem adds_answer? (t : Turn) (reply : Option Ticket) (outcome : Outcome) :
    t.Adds (reply.toList.map fun k => .answer k outcome) (t.answer? reply outcome) := by
  cases reply with
  | none => exact adds_refl t
  | some k => exact adds_emit t _

theorem adds_answerAll (t : Turn) (ks : List Ticket) (outcome : Outcome) :
    t.Adds (ks.map fun k => .answer k outcome)
      (ks.foldl (fun t k => t.answer k outcome) t) := by
  induction ks generalizing t with
  | nil => exact adds_refl t
  | cons k rest ih => exact (adds_emit t _).trans (ih _)

theorem adds_finishClose (t : Turn) :
    t.Adds (t.pool.closeWaiters.map fun k => .answer k .done) t.finishClose := by
  obtain ⟨more, log, told⟩ :=
    adds_answerAll { t with pool := { t.pool with closeWaiters := [] } } t.pool.closeWaiters .done
  exact ⟨more, log, told⟩

theorem gone_of_adds (lasting : w.Lasting) (adds : t.Adds es t') {k : Ticket}
    (left : w.gone t.effects k = true) : w.gone t'.effects k = true := by
  rw [adds.effects]
  exact lasting.gone _ _ _ left

/-! ### Taking from the queue -/

structure Popped (w : Surroundings) (t : Turn) (gone : List Request) (found : Option Request)
    (rest : List Request) (t' : Turn) : Prop where
  pool : t'.pool = { t.pool with pending := { t.pool.pending with requests := rest } }
  adds : t.Adds (stops gone) t'
  left : ∀ r ∈ gone, w.gone t'.effects r.ticket = true
  present : ∀ r ∈ found, w.gone t'.effects r.ticket = false
  nobody : found = none → rest = []

theorem popFrom_popped (lasting : w.Lasting) {rs : List Request} {found : Option Request}
    (all : t.pool.pending.requests = rs) (popped : t.popFrom w rs = (found, t')) :
    ∃ gone rest, rs = gone ++ (found.toList ++ rest) ∧ Popped w t gone found rest t' := by
  induction rs generalizing t with
  | nil =>
    cases popped
    refine ⟨[], [], rfl, ?_, adds_refl _, List.forall_mem_nil _, ?_, fun _ => rfl⟩
    · rw [← all]
    · intro r found
      cases found
  | cons first others ih =>
    simp only [popFrom] at popped
    let taken := t.withPending { t.pool.pending with requests := others }
    split at popped
    · next away =>
      have waiting : (taken.disarm first).pool.pending.requests = others := by
        rw [pool_disarm]
        rfl
      obtain ⟨gone, rest, rfl, later⟩ := ih waiting popped
      have stopped : t.Adds (stops [first]) (taken.disarm first) := adds_disarm taken first
      refine ⟨first :: gone, rest, rfl, ?_, ?_, ?_, later.present, later.nobody⟩
      · rw [later.pool, pool_disarm]
        rfl
      · rw [show first :: gone = [first] ++ gone from rfl, stops_append]
        exact stopped.trans later.adds
      · -- The first one had left before the others were looked at.
        have since : taken.Adds _ t' := stopped.trans later.adds
        exact List.forall_mem_cons.mpr ⟨gone_of_adds lasting since away, later.left⟩
    · next here =>
      cases popped
      refine ⟨[], others, rfl, rfl, adds_refl t, List.forall_mem_nil _, ?_, ?_⟩
      · intro r found
        cases found
        exact Bool.eq_false_iff.mpr here
      · intro missing
        cases missing

theorem popLive_popped (lasting : w.Lasting) {found : Option Request}
    (popped : t.popLive w = (found, t')) :
    ∃ gone rest, t.pool.pending.requests = gone ++ (found.toList ++ rest) ∧
      Popped w t gone found rest t' :=
  popFrom_popped lasting rfl popped

/-! ### Closing a connection -/

theorem discard_of_known (known : t.pool.registry.serial? id = some serial) :
    ∃ reg, t.pool.registry.discard? (w.confirms t.effects) id = some (serial, reg) ∧
      t.discard w id = (t.withRegistry reg).emit (.close serial) := by
  obtain ⟨e, found, rfl⟩ := Option.map_eq_some_iff.mp known
  cases removed : t.pool.registry.discard? (w.confirms t.effects) id with
  | none =>
    rw [Registry.find?_of_kept removed] at found
    cases found
  | some gone =>
    obtain ⟨serial', reg⟩ := gone
    obtain rfl : serial' = e.serial := by
      simp only [Registry.discard?, Registry.remove?, found, Option.map_some, Option.some.injEq,
        Prod.mk.injEq] at removed
      exact removed.1.symm
    exact ⟨reg, rfl, by simp [discard, removed]⟩

theorem discard_of_unknown (unknown : t.pool.registry.find? id = none) : t.discard w id = t := by
  simp only [discard, Registry.discard?, Registry.remove?, unknown, Option.map_none]

theorem slot?_discard : (t.discard w id).pool.registry.slot? id = none := by
  simp only [discard]
  split
  · next removed =>
    simp only [pool_emit, registry_withRegistry]
    rw [Registry.slot?_discard? removed, if_pos rfl]
  · next kept => rw [Registry.slot?, Registry.find?_of_kept kept, Option.map_none]

/-! ### Offering a connection -/

structure Refused (w : Surroundings) (t : Turn) (r : Request) (id : ConnId) (serial : Serial)
    (t' : Turn) : Prop where
  intro ::
  known : t.pool.registry.serial? id = some serial
  objection : ∃ reason reg, t.refusal w .acquired serial = some reason ∧
    t.pool.registry.discard? (w.confirms (t.call w .acquired serial).effects) id =
      some (serial, reg) ∧
    t' = (((t.call w .acquired serial).withRegistry reg).emit (.close serial)).fail r
      (.observer reason)

theorem Refused.adds (refused : Refused w t r id serial t') :
    ∃ reason, t.Adds ([.hook .acquired serial (some reason), .close serial] ++
      r.farewell (.observer reason)) t' := by
  obtain ⟨reason, reg, objects, -, rfl⟩ := refused.objection
  have called : t.Adds [.hook .acquired serial (some reason)] (t.call w .acquired serial) := by
    rw [call, objects]
    exact adds_emit t _
  have closed := called.trans
    (adds_emit ((t.call w .acquired serial).withRegistry reg) (.close serial))
  exact ⟨reason, closed.trans (adds_fail _ r (.observer reason))⟩

inductive Attempted (w : Surroundings) (t : Turn) (r : Request) (id : ConnId) (serial : Serial) :
    Bool × Turn → Prop where
  | refused {t' : Turn} (refused : Refused w t r id serial t') :
      Attempted w t r id serial (false, t')
  | left (agreed : t.refusal w .acquired serial = none)
      (gone : w.gone ((t.call w .acquired serial).disarm r).effects r.ticket = true) :
      Attempted w t r id serial (true, (t.call w .acquired serial).disarm r)
  | lent (agreed : t.refusal w .acquired serial = none) :
      Attempted w t r id serial
        (false, ((t.call w .acquired serial).disarm r).answer r.ticket (.loan id serial))

theorem attempt_attempted (known : t.pool.registry.serial? id = some serial) :
    Attempted w t r id serial (t.attempt w r id) := by
  generalize tried : t.attempt w r id = result
  simp only [attempt, known] at tried
  split at tried
  · next reason objects =>
    cases tried
    obtain ⟨reg, removed, eq⟩ :=
      discard_of_known (w := w) (t := t.call w .acquired serial) known
    exact .refused ⟨known, reason, reg, objects, removed, by rw [eq]⟩
  · next agreed =>
    split at tried
    · next gone =>
      cases tried
      exact .left agreed gone
    · cases tried
      exact .lent agreed

theorem adds_agreed (agreed : t.refusal w .acquired serial = none) :
    t.Adds (.hook .acquired serial none :: stops [r]) ((t.call w .acquired serial).disarm r) := by
  have called : t.Adds [.hook .acquired serial none] (t.call w .acquired serial) := by
    rw [call, agreed]
    exact adds_emit t _
  exact called.trans (adds_disarm _ r)

theorem passesBy_agreed : ∀ e ∈ .hook .acquired serial none :: stops [r], e.PassesBy serial :=
  List.forall_mem_cons.mpr ⟨⟨rfl, rfl, rfl⟩, passesBy_of_stops⟩

end Turn

def Pool.offering (p : Pool) (id : ConnId) (rest : List Request) : Pool :=
  { p with
    registry := p.registry.handOver id
    pending := { p.pending with requests := rest } }

theorem offering_offering {p : Pool} {id : ConnId} {rest rest' : List Request} :
    (p.offering id rest).offering id rest' = p.offering id rest' := by
  simp only [Pool.offering, Registry.handOver_handOver]

theorem offering_of_lent {p : Pool} {id : ConnId} {rest : List Request}
    (lent : p.registry.slot? id = some .onLoan) :
    p.offering id rest = { p with pending := { p.pending with requests := rest } } := by
  rw [Pool.offering, Registry.handOver_of_unchecked (by simp [lent])]

namespace Turn
variable {w : Surroundings} {t t' t'' : Turn} {es es' : List Effect} {id : ConnId}
  {serial : Serial} {r : Request} {waiting : List Request}

structure PassedOver (w : Surroundings) (id : ConnId) (serial : Serial) (t : Turn)
    (skipped rest : List Request) (t' : Turn) : Prop where
  pool : t'.pool = t.pool.offering id rest
  adds : ∃ skips, t.Adds skips t' ∧ ∀ e ∈ skips, e.PassesBy serial
  left : ∀ r ∈ skipped, w.gone t'.effects r.ticket = true

inductive Brought (w : Surroundings) (id : ConnId) (serial : Serial) (waiting : List Request)
    (t : Turn) (t' : Turn) : Prop where
  | shelved {skips last : List Effect} (adds : t.Adds (skips ++ last) t')
      (passes : ∀ e ∈ skips, e.PassesBy serial) (closes : last = [] ∨ last = [.close serial])
      (nobody : t'.pool.pending.requests = [])
      (slot : t'.pool.registry.slot? id = some .idle ∨ t'.pool.registry.slot? id = none)
  | lent {skips : List Effect} {r : Request} {skipped rest : List Request}
      (split : waiting = skipped ++ r :: rest)
      (adds : t.Adds (skips ++ [.answer r.ticket (.loan id serial)]) t')
      (passes : ∀ e ∈ skips, e.PassesBy serial) (pool : t'.pool = t.pool.offering id rest)
  | refused {mid : Turn} {r : Request} {skipped rest : List Request}
      (split : waiting = skipped ++ r :: rest) (passed : PassedOver w id serial t skipped rest mid)
      (refused : Refused w mid r id serial t')

theorem Brought.adds (brought : Brought w id serial waiting t t') :
    ∃ es, t.Adds es t' ∧ ∀ e ∈ es, e.Delivers serial := by
  cases brought with
  | shelved adds passes closes nobody slot =>
    refine ⟨_, adds, List.forall_mem_append.mpr ⟨?_, ?_⟩⟩
    · exact fun e member => delivers_of_passesBy (passes e member)
    · rcases closes with rfl | rfl
      · exact List.forall_mem_nil _
      · exact List.forall_mem_singleton.mpr rfl
  | lent split adds passes pool =>
    refine ⟨_, adds, List.forall_mem_append.mpr ⟨?_, List.forall_mem_singleton.mpr rfl⟩⟩
    exact fun e member => delivers_of_passesBy (passes e member)
  | refused split passed refused =>
    obtain ⟨skips, before, passes⟩ := passed.adds
    obtain ⟨reason, adds⟩ := refused.adds
    refine ⟨_, before.trans adds, List.forall_mem_append.mpr ⟨?_, ?_⟩⟩
    · exact fun e member => delivers_of_passesBy (passes e member)
    · refine List.forall_mem_append.mpr ⟨List.forall_mem_cons.mpr ⟨⟨rfl, rfl⟩, ?_⟩,
        List.forall_mem_append.mpr ⟨?_, List.forall_mem_singleton.mpr trivial⟩⟩
      · exact List.forall_mem_singleton.mpr rfl
      · exact fun e member => delivers_of_passesBy (passesBy_of_stops e member)

theorem adds_shelve (known : t.pool.registry.serial? id = some serial)
    (used : t.pool.registry.slot? id ≠ some .idle) :
    ∃ last, t.Adds last (t.shelve w id) ∧ (last = [] ∨ last = [.close serial]) ∧
      ((t.shelve w id).pool.registry.slot? id = some .idle ∨
        (t.shelve w id).pool.registry.slot? id = none) := by
  simp only [shelve]
  split
  · obtain ⟨reg, -, eq⟩ := discard_of_known (w := w) known
    refine ⟨[.close serial], ?_, .inr rfl, .inr slot?_discard⟩
    rw [eq]
    exact adds_emit (t.withRegistry reg) _
  · obtain ⟨e, found, -⟩ := Option.map_eq_some_iff.mp known
    have slot := Registry.slot?_of_find? found
    have inUse : e.slot ≠ .idle := fun idle => used (idle ▸ slot)
    refine ⟨[], adds_refl t, .inl rfl, .inl ?_⟩
    exact (Registry.slot?_checkIn? slot inUse).trans (if_pos rfl)

theorem used_offering {p : Pool} {rest : List Request} (used : p.registry.slot? id ≠ some .idle) :
    (p.offering id rest).registry.slot? id ≠ some .idle := by
  rw [Pool.offering]
  dsimp only
  rw [Registry.slot?_handOver]
  split
  · simp
  · exact used

theorem PassedOver.trans {skipped skipped' rest rest' : List Request} (lasting : w.Lasting)
    (first : PassedOver w id serial t skipped rest t')
    (then_ : PassedOver w id serial t' skipped' rest' t'') :
    PassedOver w id serial t (skipped ++ skipped') rest' t'' := by
  obtain ⟨skips, before, passes⟩ := first.adds
  obtain ⟨skips', after, passes'⟩ := then_.adds
  refine ⟨?_, ⟨skips ++ skips', before.trans after, ?_⟩, ?_⟩
  · rw [then_.pool, first.pool, offering_offering]
  · exact List.forall_mem_append.mpr ⟨passes, passes'⟩
  · refine List.forall_mem_append.mpr ⟨fun r member => ?_, then_.left⟩
    exact gone_of_adds lasting after (first.left r member)

/-- What comes of the rest comes of the whole. -/
theorem Brought.of_passedOver {skipped rest : List Request} (lasting : w.Lasting)
    (passed : PassedOver w id serial t skipped rest t')
    (brought : Brought w id serial waiting t' t'') :
    Brought w id serial (skipped ++ waiting) t t'' := by
  obtain ⟨skips, before, passes⟩ := passed.adds
  cases brought with
  | @shelved skips' last adds passes' closes nobody slot =>
    refine .shelved ?_ (List.forall_mem_append.mpr ⟨passes, passes'⟩) closes nobody slot
    rw [List.append_assoc]
    exact before.trans adds
  | @lent skips' r skipped' rest' split adds passes' pool =>
    have split' : skipped ++ waiting = (skipped ++ skipped') ++ r :: rest' := by
      rw [split, List.append_assoc]
    have adds' : t.Adds ((skips ++ skips') ++ [.answer r.ticket (.loan id serial)]) t'' := by
      rw [List.append_assoc]
      exact before.trans adds
    refine .lent split' adds' (List.forall_mem_append.mpr ⟨passes, passes'⟩) ?_
    rw [pool, passed.pool, offering_offering]
  | @refused mid r skipped' rest' split passed' refused =>
    refine .refused ?_ (passed.trans lasting passed') refused
    rw [split, List.append_assoc]

/-- A request is tried, and others after it. -/
theorem passedOver_of_popped {gone rest : List Request}
    (popped : Popped w t gone (some r) rest t') :
    PassedOver w id serial t gone rest (t'.handOver id) where
  pool := by
    rw [handOver, withRegistry, popped.pool]
    rfl
  adds := ⟨stops gone, popped.adds, passesBy_of_stops⟩
  left := popped.left

theorem brought_of_attempted {tried : Bool × Turn} (lasting : w.Lasting)
    (attempted : Attempted w t r id serial tried)
    (lent : t.pool.registry.slot? id = some .onLoan)
    (others : tried.1 = true → tried.2.pool = t.pool →
      Brought w id serial t.pool.pending.requests tried.2 t')
    (last : tried.1 = false → t' = tried.2) :
    Brought w id serial (r :: t.pool.pending.requests) t t' := by
  have same : t.pool = t.pool.offering id t.pool.pending.requests := by
    rw [offering_of_lent lent]
  have first : r :: t.pool.pending.requests = [] ++ r :: t.pool.pending.requests := rfl
  cases attempted with
  | refused refused =>
    obtain rfl := last rfl
    have here : PassedOver w id serial t [] t.pool.pending.requests t :=
      ⟨same, ⟨[], adds_refl t, List.forall_mem_nil _⟩, List.forall_mem_nil _⟩
    exact .refused first here refused
  | left agreed gone =>
    have passed : PassedOver w id serial t [r] t.pool.pending.requests
        ((t.call w .acquired serial).disarm r) := by
      refine ⟨?_, ⟨_, adds_agreed agreed, passesBy_agreed⟩, List.forall_mem_singleton.mpr gone⟩
      rw [pool_disarm, pool_call]
      exact same
    exact (others rfl (by simp)).of_passedOver lasting passed
  | lent agreed =>
    obtain rfl := last rfl
    refine .lent first ((adds_agreed agreed).trans (adds_emit _ _)) passesBy_agreed ?_
    rw [pool_answer, pool_disarm, pool_call]
    exact same

/-- A connection that came back is offered to the oldest caller who still waits. -/
theorem brought_of_offered {found : Bool × Turn} (lasting : w.Lasting)
    (known : t.pool.registry.serial? id = some serial)
    (used : t.pool.registry.slot? id ≠ some .idle) (popped : t.popLive w = (some r, t'))
    (offered : found = (t'.handOver id).attempt w r id)
    (others : found.1 = true → found.2.pool.registry.serial? id = some serial →
      found.2.pool.registry.slot? id ≠ some .idle →
      Brought w id serial found.2.pool.pending.requests found.2 t'')
    (last : found.1 = false → t'' = found.2) :
    Brought w id serial t.pool.pending.requests t t'' := by
  obtain ⟨e, registered, -⟩ := Option.map_eq_some_iff.mp known
  have slot := Registry.slot?_of_find? registered
  have lent : (t'.handOver id).pool.registry.slot? id = some .onLoan :=
    slot_handOver slot (fun idle => used (idle ▸ slot)) popped
  have still : (t'.handOver id).pool.registry.serial? id = some serial := by
    rw [handOver, registry_withRegistry, Registry.serial?_handOver, registry_popLive popped]
    exact known
  obtain ⟨gone, rest, split, taken⟩ := popLive_popped lasting popped
  have queue : (t'.handOver id).pool.pending.requests = rest := by
    rw [pending_handOver, taken.pool]
  subst offered
  have tried := brought_of_attempted lasting (attempt_attempted still) lent
    (fun left same => by
      have brought := others left (same ▸ still) (by simp [same, lent])
      rwa [same] at brought) last
  rw [queue] at tried
  rw [split]
  exact tried.of_passedOver lasting (passedOver_of_popped taken)

theorem recycle_brought (lasting : w.Lasting) (known : t.pool.registry.serial? id = some serial)
    (used : t.pool.registry.slot? id ≠ some .idle) :
    Brought w id serial t.pool.pending.requests t (t.recycle w id) := by
  fun_induction Turn.recycle w t id with
  | case1 t t' popped =>
    obtain ⟨gone, rest, split, popped⟩ := popLive_popped lasting popped
    obtain rfl := popped.nobody rfl
    have same : t'.pool.registry = t.pool.registry := by rw [popped.pool]
    obtain ⟨last, adds, closes, slot⟩ :=
      adds_shelve (w := w) (t := t') (same ▸ known) (same ▸ used)
    refine .shelved (popped.adds.trans adds) passesBy_of_stops closes ?_ slot
    rw [pending_shelve, popped.pool]
  | case2 t r t' popped offered left ih =>
    refine brought_of_offered lasting known used popped rfl (fun _ => ih) fun taken => ?_
    exact absurd left (by simp [offered, taken])
  | case3 t r t' popped offered taken =>
    refine brought_of_offered lasting known used popped rfl (fun left => ?_) fun _ => rfl
    exact absurd left taken

theorem deliver_brought (lasting : w.Lasting) (known : t.pool.registry.serial? id = some serial)
    (lent : t.pool.registry.slot? id = some .onLoan) (r : Request) :
    Brought w id serial (r :: t.pool.pending.requests) t (t.deliver w r id) := by
  refine brought_of_attempted lasting (attempt_attempted known) lent (fun left same => ?_) ?_
  · rw [deliver, if_pos left, ← same]
    exact recycle_brought lasting (same ▸ known) (by simp [same, lent])
  · intro taken
    rw [deliver, if_neg (by simp [taken])]

end Turn
end LoanPool
