import LoanPool.Proofs.Inspection
import LoanPool.Proofs.Notices
import LoanPool.Proofs.Overflow
import LoanPool.Proofs.Shortcut

/-!
# Connections that are lent again

Before a connection goes to a caller once more, the pool has asked it in the same turn whether it is
active, and has done nothing since but stop timers and call hooks on it. There is one exception: a
good verdict on a connection is taken for an answer, however old it is.
-/
namespace LoanPool
open Pending (Request)

/-- The connection that is being handed to a caller. The hook comes first, then the answer. -/
def Effect.delivers? : Effect → Option Serial
  | .hook .acquired serial _ => some serial
  | .answer _ (.loan _ serial) => some serial
  | _ => none

/-- What may come between the question whether a connection is active and its delivery. -/
def Effect.Aside (serial : Serial) : Effect → Prop
  | .disarm _ => True
  | .hook _ serial' _ => serial' = serial
  | _ => False

/-- A connection has said that it is active, and next to nothing has happened since. -/
def Asked (w : Surroundings) (serial : Serial) (log : List Effect) : Prop :=
  ∃ asked aside, log = asked ++ aside ∧ w.active asked serial = true ∧
    ∀ e ∈ aside, e.Aside serial

theorem asked_now {w : Surroundings} {serial : Serial} {log : List Effect}
    (active : w.active log serial = true) : Asked w serial log :=
  ⟨log, [], (List.append_nil _).symm, active, List.forall_mem_nil _⟩

theorem asked_concat {w : Surroundings} {serial : Serial} {log : List Effect} {e : Effect}
    (asked : Asked w serial log) (aside : e.Aside serial) : Asked w serial (log ++ [e]) := by
  obtain ⟨before, since, rfl, active, still⟩ := asked
  refine ⟨before, since ++ [e], List.append_assoc _ _ _, active, ?_⟩
  exact List.forall_mem_append.mpr ⟨still, List.forall_mem_singleton.mpr aside⟩

namespace Turn

def Ready (w : Surroundings) (exempt : Serial → Prop) (serial : Serial) (t : Turn) : Prop :=
  exempt serial ∨ Asked w serial t.effects

def Deliverable (w : Surroundings) (exempt : Serial → Prop) (id : ConnId) (t : Turn) : Prop :=
  ∀ serial, t.pool.registry.serial? id = some serial → t.Ready w exempt serial

def Sound (w : Surroundings) (exempt : Serial → Prop) (t : Turn) : Prop :=
  ∀ front e back serial, t.effects = front ++ e :: back → e.delivers? = some serial →
    exempt serial ∨ Asked w serial front

variable {w : Surroundings} {exempt : Serial → Prop} {t t' : Turn} {id : ConnId} {serial : Serial}

theorem sound_emit {e : Effect} (sound : t.Sound w exempt)
    (ready : ∀ serial, e.delivers? = some serial → t.Ready w exempt serial) :
    (t.emit e).Sound w exempt := by
  intro front e' back serial split delivers
  rw [effects_emit] at split
  rcases List.eq_nil_or_concat back with rfl | ⟨rest, last, rfl⟩
  · obtain ⟨rfl, rfl⟩ : t.effects = front ∧ e = e' := by
      simpa using List.append_inj' split rfl
    exact ready serial delivers
  · have cut : t.effects ++ [e] = (front ++ e' :: rest) ++ [last] := by simpa using split
    obtain ⟨before, -⟩ := List.append_inj' cut rfl
    exact sound front e' rest serial before delivers

theorem sound_say {e : Effect} (sound : t.Sound w exempt) (plain : e.delivers? = none) :
    (t.emit e).Sound w exempt := by
  apply sound_emit sound
  intro serial delivers
  cases plain.symm.trans delivers

theorem ready_emit {e : Effect} (ready : t.Ready w exempt serial) (aside : e.Aside serial) :
    (t.emit e).Ready w exempt serial := by
  refine ready.imp_right fun asked => ?_
  rw [effects_emit]
  exact asked_concat asked aside

/-! ### What delivers nothing -/

theorem sound_disarm (sound : t.Sound w exempt) (r : Request) : (t.disarm r).Sound w exempt := by
  simp only [disarm]
  split
  · exact sound_say sound rfl
  · exact sound

theorem ready_disarm (ready : t.Ready w exempt serial) (r : Request) :
    (t.disarm r).Ready w exempt serial := by
  simp only [disarm]
  split
  · exact ready_emit ready trivial
  · exact ready

theorem sound_fail (sound : t.Sound w exempt) (r : Request) (cause : PoolError) :
    (t.fail r cause).Sound w exempt :=
  sound_say (sound_disarm sound r) rfl

theorem sound_discard (sound : t.Sound w exempt) (id : ConnId) :
    (t.discard w id).Sound w exempt := by
  simp only [discard]
  split
  · next serial r removed => exact sound_say (t := t.withRegistry r) sound rfl
  · exact sound

theorem sound_failTarget (sound : t.Sound w exempt) (target : Target) (cause : PoolError) :
    (t.failTarget target cause).Sound w exempt := by
  cases target with
  | owned r => exact sound_fail sound r cause
  | queued id =>
    simp only [failTarget, takePending]
    cases t.pool.pending.remove? id with
    | none => exact sound
    | some found =>
      obtain ⟨r, rest⟩ := found
      exact sound_fail (t := t.withPending rest) sound r cause

theorem sound_openFor (sound : t.Sound w exempt) (target : Target) :
    (t.openFor w target).Sound w exempt := by
  simp only [openFor]
  split
  · exact sound_say (t := t.withRegistry _) sound rfl
  · exact sound_failTarget sound target .poolClosed

theorem popFrom_keeps (exempt : Serial → Prop) {found : Option Request} {rs : List Request}
    (popped : t.popFrom w rs = (found, t')) :
    (t.Sound w exempt → t'.Sound w exempt) ∧
      ∀ serial, t.Ready w exempt serial → t'.Ready w exempt serial := by
  induction rs generalizing t with
  | nil =>
    cases popped
    exact ⟨fun sound => sound, fun _ ready => ready⟩
  | cons r rest ih =>
    simp only [popFrom] at popped
    let taken := t.withPending { t.pool.pending with requests := rest }
    split at popped
    · obtain ⟨sound, ready⟩ := ih popped
      constructor
      · intro before
        exact sound (sound_disarm (t := taken) before r)
      · intro serial before
        exact ready serial (ready_disarm (t := taken) before r)
    · cases popped
      exact ⟨fun sound => sound, fun _ ready => ready⟩

/-! ### Deliveries -/

/-- A connection that may be delivered still may when its caller turns out to have gone. -/
theorem attempt_keeps {r : Request} (sound : t.Sound w exempt)
    (ready : t.Deliverable w exempt id) :
    (t.attempt w r id).2.Sound w exempt ∧
      ((t.attempt w r id).1 = true → (t.attempt w r id).2.Deliverable w exempt id) := by
  generalize tried : t.attempt w r id = result
  simp only [attempt] at tried
  split at tried
  · next unknown =>
    cases tried
    refine ⟨sound_fail sound r .poolClosed, ?_⟩
    rintro ⟨⟩
  · next serial known =>
    have here := ready serial known
    have called : (t.call w .acquired serial).Sound w exempt := by
      apply sound_emit sound
      rintro serial' ⟨⟩
      exact here
    have still : ((t.call w .acquired serial).disarm r).Ready w exempt serial := by
      apply ready_disarm
      exact ready_emit here (show Effect.Aside serial (.hook .acquired serial _) from rfl)
    split at tried
    · next reason refused =>
      cases tried
      refine ⟨sound_fail (sound_discard called id) r (.observer reason), ?_⟩
      rintro ⟨⟩
    · split at tried
      · next left =>
        cases tried
        refine ⟨sound_disarm called r, ?_⟩
        intro _ serial' known'
        rw [pool_disarm, call, pool_emit, known] at known'
        cases known'
        exact still
      · cases tried
        constructor
        · apply sound_emit (sound_disarm called r)
          rintro serial' ⟨⟩
          exact still
        · rintro ⟨⟩

theorem sound_shelve (sound : t.Sound w exempt) (id : ConnId) : (t.shelve w id).Sound w exempt := by
  simp only [shelve]
  split
  · exact sound_discard sound id
  · exact sound

theorem offer_keeps {r : Request} (sound : t.Sound w exempt)
    (ready : t.Deliverable w exempt id) (popped : t.popLive w = (some r, t')) :
    ((t'.handOver id).attempt w r id).2.Sound w exempt ∧
      (((t'.handOver id).attempt w r id).1 = true →
        ((t'.handOver id).attempt w r id).2.Deliverable w exempt id) := by
  obtain ⟨sound', ready'⟩ := popFrom_keeps exempt popped
  refine attempt_keeps (t := t'.handOver id) (sound' sound) ?_
  intro serial known
  have same : (t'.handOver id).pool.registry.serial? id = t.pool.registry.serial? id := by
    rw [← registry_popLive popped]
    exact Registry.serial?_handOver
  exact ready' serial (ready serial (same ▸ known))

theorem sound_recycle (sound : t.Sound w exempt) (ready : t.Deliverable w exempt id) :
    (t.recycle w id).Sound w exempt := by
  -- With each round one waiter less is there, and the connection may be delivered as before.
  fun_induction recycle w t id with
  | case1 t t' popped => exact sound_shelve ((popFrom_keeps exempt popped).1 sound) id
  | case2 t r t' popped offered left ih =>
    obtain ⟨sound', ready'⟩ := offer_keeps sound ready popped
    exact ih sound' (ready' left)
  | case3 t r t' popped offered taken => exact (offer_keeps sound ready popped).1

theorem sound_deliver {r : Request} (sound : t.Sound w exempt) (ready : t.Deliverable w exempt id) :
    (t.deliver w r id).Sound w exempt := by
  obtain ⟨sound', ready'⟩ := attempt_keeps (r := r) sound ready
  simp only [deliver]
  split
  · next left => exact sound_recycle sound' (ready' left)
  · exact sound'

/-- What is taken from the idle queue has just said that it is active. -/
theorem checkout_keeps {found : Option ConnId} (sound : t.Sound w exempt)
    (taken : t.checkout w = (found, t')) :
    t'.Sound w exempt ∧ ∀ id, found = some id → t'.Deliverable w exempt id := by
  fun_induction checkout w t with
  | case1 t empty =>
    cases taken
    refine ⟨sound, ?_⟩
    rintro id ⟨⟩
  | case2 t id r next active =>
    cases taken
    refine ⟨sound, ?_⟩
    rintro id' ⟨⟩ serial known
    simp only [reportsActive, known] at active
    exact .inr (asked_now active)
  | case3 t id r next inactive ih => exact ih (sound_discard (t := t.withRegistry r) sound id) taken

theorem sound_serve (sound : t.Sound w exempt) : (t.serve w).Sound w exempt := by
  fun_induction serve w t with
  | case1 t nobody => exact sound
  | case2 t waiting id t' found r t'' popped ih =>
    obtain ⟨sound', ready'⟩ := checkout_keeps sound found
    obtain ⟨sound'', ready''⟩ := popFrom_keeps exempt popped
    refine ih (sound_deliver (sound'' sound') ?_)
    intro serial known
    rw [registry_popLive popped] at known
    exact ready'' serial (ready' id rfl serial known)
  | case3 t waiting id t' found t'' popped =>
    exact (popFrom_keeps exempt popped).1 (checkout_keeps sound found).1
  | case4 t waiting t' found room r t'' popped ih =>
    have sound'' := (popFrom_keeps exempt popped).1 (checkout_keeps sound found).1
    exact ih (sound_openFor (sound_disarm sound'' r) _)
  | case5 t waiting t' found room t'' popped =>
    exact (popFrom_keeps exempt popped).1 (checkout_keeps sound found).1
  | case6 t waiting t' found full => exact (checkout_keeps sound found).1

/-! ### Commands -/

theorem sound_answer? (sound : t.Sound w exempt) (reply : Option Ticket) {outcome : Outcome}
    (plain : ∀ k, (Effect.answer k outcome).delivers? = none) :
    (t.answer? reply outcome).Sound w exempt := by
  cases reply with
  | none => exact sound
  | some k => exact sound_say sound (plain k)

theorem sound_prune (sound : t.Sound w exempt) : (t.prune w).Sound w exempt := by
  simp only [prune, disarmAll]
  generalize gone : t.pool.pending.abandoned (w.gone t.effects) = rs
  have kept : (t.withPending (t.pool.pending.prune (w.gone t.effects))).Sound w exempt := sound
  generalize t.withPending (t.pool.pending.prune (w.gone t.effects)) = pruned at kept
  clear gone
  induction rs generalizing pruned with
  | nil => exact kept
  | cons r rest ih => exact ih (pruned.disarm r) (sound_disarm kept r)

theorem sound_lineUp (sound : t.Sound w exempt) (r : Request) : (t.lineUp w r).Sound w exempt := by
  have pruned := sound_prune sound
  simp only [lineUp]
  split
  · exact sound_fail (t := (t.prune w).count _) pruned r _
  · simp only [enqueue]
    split
    · exact sound_say pruned rfl
    · exact pruned

theorem sound_acquire (sound : t.Sound w exempt) (k : Ticket) : (t.acquire w k).Sound w exempt := by
  simp only [acquire]
  split
  · exact sound_say sound rfl
  · have named : (t.newRequest k).2.Sound w exempt := sound
    split
    · next id t' found =>
      obtain ⟨sound', ready⟩ := checkout_keeps named found
      exact sound_deliver sound' (ready id rfl)
    · next t' found =>
      obtain ⟨sound', -⟩ := checkout_keeps named found
      split
      · exact sound_openFor sound' _
      · exact sound_lineUp sound' _

theorem sound_connected (sound : t.Sound w exempt) (target : Target)
    (result : Except String Serial) (new : ∀ serial, result = .ok serial → exempt serial) :
    (t.connected w target result).Sound w exempt := by
  cases result with
  | error cause =>
    exact sound_failTarget (t := t.withRegistry t.pool.registry.cancelReservation) sound target _
  | ok serial =>
    have registered : (t.register serial).2.Sound w exempt := by
      refine sound_say (e := .listen ⟨t.pool.nextConn⟩ serial) ?_ rfl
      exact sound
    have known : (t.register serial).2.pool.registry.serial? (t.register serial).1 = some serial :=
      Registry.serial?_register_self
    simp only [connected]
    split
    · exact sound_failTarget (sound_discard registered _) target .poolClosed
    · have called : ((t.register serial).2.call w .created serial).Sound w exempt :=
        sound_say registered rfl
      split
      · next reason refused => exact sound_failTarget (sound_discard called _) target _
      · have ready : ((t.register serial).2.call w .created serial).Deliverable w exempt
            (t.register serial).1 := by
          intro serial' known'
          cases known.symm.trans known'
          exact .inl (new serial rfl)
        cases target with
        | owned r => exact sound_deliver called ready
        | queued request =>
          simp only [place, takePending]
          generalize called_eq : (t.register serial).2.call w .created serial = t' at called ready
          cases t'.pool.pending.remove? request with
          | none => exact sound_recycle called ready
          | some found =>
            obtain ⟨r, rest⟩ := found
            exact sound_deliver (t := t'.withPending rest) called ready

theorem sound_takeBack (sound : t.Sound w exempt) (id : ConnId) (reply : Option Ticket) :
    (t.takeBack w id reply).Sound w exempt := by
  simp only [takeBack]
  split
  · exact sound_answer? (sound_discard sound id) reply fun _ => rfl
  · split
    · exact sound_answer? sound reply fun _ => rfl
    · next serial r lent =>
      have back : (t.withRegistry r).Sound w exempt := sound
      split
      · exact sound_answer? (sound_discard back id) reply fun _ => rfl
      · next active =>
        have active : w.active (t.withRegistry r).effects serial = true := by simpa using active
        have called : ((t.withRegistry r).call w .released serial).Sound w exempt :=
          sound_say back rfl
        have ready : ((t.withRegistry r).call w .released serial).Deliverable w exempt id := by
          intro serial' known
          cases (Registry.serial?_beginCheck? lent).symm.trans known
          exact ready_emit (t := t.withRegistry r) (.inr (asked_now active))
            (show Effect.Aside serial (.hook .released serial _) from rfl)
        split
        · exact sound_answer? (sound_discard called id) reply fun _ => rfl
        · split
          · exact sound_answer? (sound_recycle called ready) reply fun _ => rfl
          · split
            · exact sound_say called rfl
            · exact sound_answer? (sound_discard called id) reply fun _ => rfl

theorem sound_checked (sound : t.Sound w exempt) (id : ConnId) (healthy : Bool)
    (reply : Option Ticket)
    (good : healthy = true → t.pool.registry.isChecking id = true →
      ∀ serial, t.pool.registry.serial? id = some serial → exempt serial) :
    (t.checked w id healthy reply).Sound w exempt := by
  simp only [checked]
  split
  · exact sound_answer? sound reply fun _ => rfl
  · next checking =>
    split
    · next fine =>
      refine sound_answer? (sound_recycle sound ?_) reply fun _ => rfl
      intro serial known
      exact .inl (good fine (by simpa using checking) serial known)
    · exact sound_answer? (sound_discard sound id) reply fun _ => rfl

theorem sound_timedOut (sound : t.Sound w exempt) (request : RequestId) :
    (t.timedOut w request).Sound w exempt := by
  simp only [timedOut]
  split
  · exact sound
  · next r queued =>
    have expired : (t.withPending
        (t.pool.pending.replace request (t.pool.config.expire r).2)).Sound w exempt := sound
    generalize t.withPending (t.pool.pending.replace request (t.pool.config.expire r).2) = t'
      at expired
    split
    · simp only [takePending]
      cases t'.pool.pending.remove? request with
      | none => exact expired
      | some found =>
        obtain ⟨r, rest⟩ := found
        exact sound_fail (t := (t'.withPending rest).count _) expired r _
    · exact sound_openFor (t := t'.count _) expired _
    · exact expired

theorem sound_failAll (sound : t.Sound w exempt) (rs : List Request) (cause : PoolError) :
    (rs.foldl (fun t r => t.fail r cause) t).Sound w exempt := by
  induction rs generalizing t with
  | nil => exact sound
  | cons r rest ih => exact ih (sound_fail sound r cause)

theorem sound_evictAll (sound : t.Sound w exempt) (order : List ConnId) :
    (order.foldl (Turn.discard w) t).Sound w exempt := by
  induction order generalizing t with
  | nil => exact sound
  | cons id rest ih => exact ih (sound_discard sound id)

theorem sound_shutDown (sound : t.Sound w exempt) : (t.shutDown w).Sound w exempt := by
  apply sound_evictAll
  apply sound_failAll
  exact sound

theorem sound_answerAll (sound : t.Sound w exempt) (ks : List Ticket) :
    (ks.foldl (fun t k => t.answer k .done) t).Sound w exempt := by
  induction ks generalizing t with
  | nil => exact sound
  | cons k rest ih => exact ih (sound_say sound rfl)

theorem sound_finishClose (sound : t.Sound w exempt) : t.finishClose.Sound w exempt := by
  apply sound_answerAll
  exact sound

theorem sound_settleClose (sound : t.Sound w exempt) : t.settleClose.Sound w exempt := by
  simp only [settleClose]
  split
  · exact sound_finishClose sound
  · exact sound

theorem sound_servePending (sound : t.Sound w exempt) : (t.servePending w).Sound w exempt := by
  simp only [servePending]
  split
  · exact sound
  · exact sound_serve sound

end Turn

/-- The connections that a command lets the pool deliver unasked: the one that it brings, and the
one whose check it says went well. -/
def Command.Exempts (p : Pool) : Command → Serial → Prop
  | .connected _ (.ok serial'), serial => serial' = serial
  | .checked id true _, serial =>
    p.registry.isChecking id = true ∧ p.registry.serial? id = some serial
  | _, _ => False

theorem sound_perform {w : Surroundings} {p : Pool} (c : Command) :
    ((Turn.mk p []).perform w c).Sound w (c.Exempts p) := by
  have silent : (Turn.mk p []).Sound w (c.Exempts p) := by
    intro front e back serial split
    simp [Turn.effects] at split
  cases c with
  | acquire k => exact Turn.sound_acquire silent k
  | release id k => exact Turn.sound_takeBack silent id (some k)
  | close k =>
    simp only [Turn.perform, Turn.close]
    split
    · exact Turn.sound_say silent rfl
    · exact Turn.sound_shutDown silent
  | stats k => exact Turn.sound_say silent rfl
  | connected target result =>
    apply Turn.sound_connected silent
    rintro serial rfl
    rfl
  | checked id healthy reply =>
    apply Turn.sound_checked silent
    rintro rfl checking serial known
    exact ⟨checking, known⟩
  | timedOut request => exact Turn.sound_timedOut silent request
  | closed id => exact silent
  | dropped id => exact Turn.sound_takeBack silent id none

theorem sound_handle {w : Surroundings} {p : Pool} (c : Command) :
    (p.handle w c).Sound w (c.Exempts p) :=
  Turn.sound_settleClose (Turn.sound_servePending (sound_perform c))

theorem sound_respond {w : Surroundings} {p : Pool} (c : Option Command) :
    (p.respond w c).Sound w fun serial => ∃ c' ∈ c, c'.Exempts p serial := by
  cases c with
  | some c =>
    intro front e back serial split delivers
    refine (sound_handle c front e back serial split delivers).imp_left ?_
    intro exempt
    exact ⟨c, rfl, exempt⟩
  | none =>
    apply Turn.sound_finishClose
    apply Turn.sound_shutDown
    intro front e back serial split
    simp [Turn.effects] at split

/-! ### Idle connections in the course of a turn -/

/-- What an idle connection ends with: it is closed, or lent, or its close has been noticed. -/
def Site.Record.Parts (rec : Record) (n : ConnId × Serial) : Prop :=
  rec.effect = some (.close n.2) ∨ (∃ k, rec.effect = some (.answer k (.loan n.1 n.2))) ∨
    rec.command = some (.closed n.1)

structure Scene.Followed (origin : List Site.Record) (n : ConnId × Serial) (sc : Scene) : Prop where
  opened : n ∈ Site.opened sc.past
  since : ∃ since last, sc.past = origin ++ (since ++ [last]) ∧ last.command = sc.command ∧
    (sc.registry.slot? n.1 = some .idle ∨
      sc.registry.slot? n.1 = some .onLoan ∧ sc.hand.conn = some n.1 ∨
      ∃ rec ∈ since ++ [last], rec.Parts n)

variable {sc sc' : Scene} {n : ConnId × Serial} {origin past : List Site.Record}

/-- What a move does to a connection that is idle, or in hand on loan. -/
theorem parted_of_move (a : sc.Accounted) (traced : sc.Traced)
    (tasked : ∀ c, sc.hand.task = some c → sc.command = c) (move : Move sc sc')
    (opened : n ∈ Site.opened sc.past)
    (stands : sc.registry.slot? n.1 = some .idle ∨
      sc.registry.slot? n.1 = some .onLoan ∧ sc.hand.conn = some n.1) :
    sc'.registry.slot? n.1 = some .idle ∨
      sc'.registry.slot? n.1 = some .onLoan ∧ sc'.hand.conn = some n.1 ∨
      sc.command = some (.closed n.1) ∨ ∃ rec, sc'.past = sc.past ++ [rec] ∧ rec.Parts n := by
  have same : ∀ {serial}, (n.1, serial) ∈ sc.registry.names → n = (n.1, serial) :=
    fun member => eq_of_opened traced opened (traced.named _ member) rfl
  cases passing_move a tasked move n.1 with
  | same steady slot hand judging command =>
    rcases stands with idle | ⟨lent, held⟩
    · exact .inl (slot.trans idle)
    · exact .inr (.inl ⟨slot.trans lent, hand.mpr held⟩)
  | gone steady slot told =>
    rcases told with noticed | ⟨serial, rec, named, past, closes⟩
    · exact .inr (.inr (.inl noticed))
    · refine .inr (.inr (.inr ⟨rec, past, .inl ?_⟩))
      rw [same named]
      exact closes
  | taken steady idle slot held => exact .inr (.inl ⟨slot, held⟩)
  | shelved steady held fit slot past => exact .inl slot
  | lent slot onLoan held unheld count loan =>
    obtain ⟨k, serial, rec, named, past, answers⟩ := loan
    refine .inr (.inr (.inr ⟨rec, past, .inr (.inl ⟨k, ?_⟩)⟩))
    rw [same named]
    exact answers
  | begun slot count free =>
    rcases stands with idle | ⟨lent, held⟩
    · exact .inl (slot.trans idle)
    · rw [free] at held
      cases held
  | dismissed slot other unheld =>
    rcases stands with idle | ⟨lent, held⟩
    · exact .inl (slot.trans idle)
    · exact absurd held unheld
  | registered steady new slot =>
    have known : n.1 ∈ sc.registry.ids := by
      rcases stands with idle | ⟨lent, held⟩
      · exact Registry.mem_ids_of_slot? idle
      · exact Registry.mem_ids_of_slot? lent
    have born := a.named n.1 known
    rw [new] at born
    exact absurd born (Nat.lt_irrefl _)
  | returned steady lent unheld =>
    rcases stands with idle | ⟨-, held⟩
    · cases idle.symm.trans lent
    · exact absurd held unheld
  | handed steady held checking | judged slot checking | inspected slot checking =>
    rcases stands with idle | ⟨lent, -⟩
    · cases idle.symm.trans checking
    · cases lent.symm.trans checking

theorem record_of_move (move : Move sc sc') :
    (sc'.past = sc.past ∧ sc'.command = sc.command) ∨
      ∃ rec, sc'.past = sc.past ++ [rec] ∧ rec.command = sc'.command := by
  cases recording_move move with
  | same past memory => exact .inl ⟨past, congrArg Memory.command memory⟩
  | begin free due => exact .inr ⟨_, rfl, rfl⟩
  | effect p h e => exact .inr ⟨_, rfl, rfl⟩

theorem followed_move (a : sc.Accounted) (traced : sc.Traced)
    (tasked : ∀ c, sc.hand.task = some c → sc.command = c) (move : Move sc sc')
    (followed : sc.Followed origin n) : sc'.Followed origin n := by
  obtain ⟨opened, since, last, past, command, stands⟩ := followed
  have onward : sc'.registry.slot? n.1 = some .idle ∨
      (sc'.registry.slot? n.1 = some .onLoan ∧ sc'.hand.conn = some n.1) ∨
      (∃ rec ∈ since ++ [last], rec.Parts n) ∨
      ∃ rec, sc'.past = sc.past ++ [rec] ∧ rec.Parts n := by
    by_cases parted : ∃ rec ∈ since ++ [last], rec.Parts n
    · exact .inr (.inr (.inl parted))
    · have stands := stands.imp_right fun other => other.resolve_right parted
      rcases parted_of_move a traced tasked move opened stands with idle | held | noticed | gone
      · exact .inl idle
      · exact .inr (.inl held)
      · -- The command is that of the last record.
        exact absurd ⟨last, by simp, .inr (.inr (command.trans noticed))⟩ parted
      · exact .inr (.inr (.inr gone))
  refine ⟨mem_opened_move move opened, ?_⟩
  rcases record_of_move move with ⟨silent, same⟩ | ⟨rec, told, same⟩
  · refine ⟨since, last, silent.trans past, command.trans same.symm, ?_⟩
    rcases onward with idle | held | parted | ⟨rec, more, parts⟩
    · exact .inl idle
    · exact .inr (.inl held)
    · exact .inr (.inr parted)
    · have longer := congrArg List.length (silent.symm.trans more)
      simp at longer
  · refine ⟨since ++ [last], rec, ?_, same, ?_⟩
    · rw [told, past, List.append_assoc]
    · rcases onward with idle | held | ⟨rec', member, parts⟩ | ⟨rec', more, parts⟩
      · exact .inl idle
      · exact .inr (.inl held)
      · exact .inr (.inr ⟨rec', List.mem_append_left _ member, parts⟩)
      · obtain rfl : rec = rec' := by simpa using told.symm.trans more
        exact .inr (.inr ⟨rec, by simp, parts⟩)

/-! ### Connections that have been lent -/

def Scene.Loaned (sc : Scene) : Prop :=
  ∀ rec ∈ sc.past, ∀ k id serial, rec.effect = some (.answer k (.loan id serial)) →
    (id, serial) ∈ Site.opened sc.past

theorem loaned_move (traced : sc.Traced) (move : Move sc sc') (loaned : sc.Loaned) :
    sc'.Loaned := by
  intro rec member k id serial lends
  apply mem_opened_move move
  rcases effect_move move member lends with before | ⟨p, h, done, -⟩
  · exact loaned rec before k id serial lends
  · obtain ⟨-, -, known, -⟩ := loan_of_move move done
    exact traced.named _ (Registry.mem_names_of_serial? known)

structure Scene.Reusing (sc : Scene) : Prop where
  attended : sc.Attended
  tasked : ∀ c, sc.hand.task = some c → sc.command = c
  loaned : sc.Loaned

theorem reusing_move (move : Move sc sc') (held : sc.Reusing) : sc'.Reusing where
  attended := attended_move move held.attended
  tasked := tasked_move move held.tasked
  loaned := loaned_move held.attended.watched.traced move held.loaned

theorem reusing_start (config : Config) (observer : Hook → Nat → Option String) :
    (Scene.start config observer).Reusing where
  attended := attended_start config observer
  tasked := nofun
  loaned := List.forall_mem_nil _

variable {config : Config} {observer : Hook → Nat → Option String} {now later : Nat}
  {s rest : Site} {c : Option Command}

theorem not_brought_of_opened (target : Target) {id : ConnId} {serial : Serial}
    (upkept : sc.Upkept) (opened : (id, serial) ∈ Site.opened sc.past) :
    Command.connected target (.ok serial) ∉ sc.commands := by
  intro brings
  have once := upkept.arrivals serial
  have here : 0 < sc.commands.countP fun c => c.brought? = some serial :=
    List.countP_pos_iff.mpr ⟨_, brings, by simp [Command.brought?]⟩
  have had : 0 < (Site.opened sc.past).countP fun n => n.2 = serial :=
    List.countP_pos_iff.mpr ⟨_, opened, by simp⟩
  rw [Scene.arrivals] at once
  split at once <;> omega

/-- An idle connection that is not idle after a turn was closed or lent in it. -/
theorem parted_of_turn (run : Site.Run config observer past now s) (order : now ≤ later)
    (due : s.next? = some (c, rest)) (course : Site.Course later rest)
    (named : n ∈ s.pool.registry.names) (idle : n.1 ∈ s.pool.registry.idle) :
    n.1 ∈ (course.after c).pool.registry.idle ∨ c = some (.closed n.1) ∨
      .close n.2 ∈ (course.turn c).effects ∨
      ∃ k, .answer k (.loan n.1 n.2) ∈ (course.turn c).effects := by
  obtain ⟨⟨m, path⟩, quiet⟩ := path_of_run run
  have before := path_invariant path reusing_move (reusing_start config observer)
  have same := Site.pool_next? due
  have accounted := before.attended.watched.kept.accounted
  have listed : ((Setting.turn m past s c course).scene ⟨rest.pool, []⟩ { task := some c }).past =
      past ++ [{ now := later, command := c, pool := s.pool }] := List.append_nil _
  have first : Scene.Followed past n
      ((Setting.turn m past s c course).scene ⟨rest.pool, []⟩ { task := some c }) := by
    refine ⟨?_, [], { now := later, command := c, pool := s.pool }, listed, rfl, .inl ?_⟩
    · have opened : n ∈ Site.opened past := before.attended.watched.traced.named n named
      rw [listed, opened_concat]
      exact List.mem_append_left _ opened
    · change rest.pool.registry.slot? n.1 = some .idle
      rw [same]
      exact (accounted.balanced.idle n.1).mp idle
  have step : ∀ {a b : Scene}, Move a b → a.Reusing ∧ a.Followed past n →
      b.Reusing ∧ b.Followed past n := by
    rintro a b move ⟨held, followed⟩
    exact ⟨reusing_move move held, followed_move held.attended.watched.kept.accounted
      held.attended.watched.traced held.tasked move followed⟩
  have begun := path_invariant (path_begin order due course) reusing_move before
  obtain ⟨after, -, since, last, split, -, stands⟩ :=
    path_invariant (path_act due course quiet) step ⟨begun, first⟩
  rw [scene_turn] at after split stands
  rw [← List.append_cancel_left split] at stands
  rcases stands with idle' | ⟨-, held⟩ | ⟨rec, member, parts⟩
  · exact .inl ((after.attended.watched.kept.accounted.balanced.idle n.1).mpr idle')
  · cases held
  · right
    rcases List.mem_cons.mp member with rfl | logged
    · rcases parts with closes | ⟨k, lends⟩ | noticed
      · cases closes
      · cases lends
      · exact .inl noticed
    · obtain ⟨moment, here, rfl⟩ := List.mem_map.mp logged
      have told : moment.effect ∈ (course.turn c).effects := List.mem_map_of_mem here
      rcases parts with closes | ⟨k, lends⟩ | noticed
      · exact .inr (.inl (Option.some.inj closes ▸ told))
      · exact .inr (.inr ⟨k, Option.some.inj lends ▸ told⟩)
      · exact .inl noticed

/-- Of the connections that the pool has had, a command has one delivered unasked only if it says
that its check went well. -/
theorem checked_of_exempts (run : Site.Run config observer past now s)
    (due : s.next? = some (c, rest)) {id : ConnId} {serial : Serial}
    (opened : (id, serial) ∈ Site.opened past) {c' : Command} (command : c' ∈ c)
    (exempt : c'.Exempts rest.pool serial) :
    ∃ reply, c = some (.checked id true reply) ∧ s.pool.registry.isChecking id = true ∧
      s.pool.registry.serial? id = some serial := by
  obtain ⟨m, held⟩ := run_invariant Scene.Reusing run reusing_move
    (reusing_start config observer)
  obtain rfl : c = some c' := command
  rw [Site.pool_next? due] at exempt
  cases c' with
  | connected target result =>
    cases result with
    | error cause => cases exempt
    | ok serial' =>
      obtain rfl : serial' = serial := exempt
      -- Whatever the pool has had does not come to it again.
      refine absurd ?_ (not_brought_of_opened target held.attended.upkept opened)
      rw [Scene.commands, Site.mailbox_next? due]
      exact List.mem_append_right _ List.mem_cons_self
  | checked id' healthy reply =>
    cases healthy with
    | false => cases exempt
    | true =>
      obtain ⟨checking, known⟩ := exempt
      have opened' := held.attended.watched.traced.named _ (Registry.mem_names_of_serial? known)
      cases eq_of_serial held.attended.upkept opened opened' rfl
      exact ⟨reply, rfl, checking, known⟩
  | _ => cases exempt

/-- A connection that was lent before is delivered only when it has just been asked, or for a good
verdict. -/
theorem asked_of_turn (run : Site.Run config observer past now s)
    (due : s.next? = some (c, rest)) (course : Site.Course later rest) {front back : List Effect}
    {e : Effect} {serial : Serial} (split : (course.turn c).effects = front ++ e :: back)
    (delivers : e.delivers? = some serial)
    (lent : ∃ rec ∈ past, ∃ k id, rec.effect = some (.answer k (.loan id serial))) :
    Asked (Site.surroundings course.amid) serial front ∨
      ∃ id reply, c = some (.checked id true reply) ∧
        s.pool.registry.serial? id = some serial := by
  obtain ⟨rec, member, k, id, lends⟩ := lent
  obtain ⟨m, held⟩ := run_invariant Scene.Reusing run reusing_move
    (reusing_start config observer)
  have opened := held.loaned rec member k id serial lends
  rcases sound_respond (w := Site.surroundings course.amid) (p := rest.pool) c front e back serial
    split delivers with ⟨c', command, exempt⟩ | asked
  · obtain ⟨reply, told, -, known⟩ := checked_of_exempts run due opened command exempt
    exact .inr ⟨id, reply, told, known⟩
  · exact .inl asked

/-! ### Connections that are found inactive -/

/-- A connection that comes back inactive is closed before anything else is done. -/
theorem closes_of_returned {w : Surroundings} {p : Pool} {c : Command} {id : ConnId}
    {serial : Serial} (back : c.returned? = some id) (lent : p.registry.slot? id = some .onLoan)
    (known : p.registry.serial? id = some serial) (inactive : w.active [] serial = false) :
    [.close serial] <+: ((Turn.mk p []).perform w c).effects := by
  have discarded : ∀ r : Registry, r.serial? id = some serial →
      [.close serial] <+: ((((Turn.mk p []).withRegistry r).discard w id).answer? c.returner?
        .done).effects := by
    intro r known
    obtain ⟨reg, -, closes⟩ := Turn.discard_of_known (w := w)
      (t := (Turn.mk p []).withRegistry r) known
    rw [(Turn.adds_answer? _ _ _).effects, closes]
    exact List.prefix_append [_] _
  obtain ⟨r, begun⟩ := Pool.beginCheck?_of_lent lent known
  rw [Pool.perform_of_returned _ back, Turn.takeBack]
  split
  · exact discarded p.registry known
  · simp only [begun]
    rw [if_pos (by simpa [Turn.effects, Turn.withRegistry] using inactive)]
    exact discarded r (Registry.serial?_beginCheck? begun)

theorem closes_of_turn (run : Site.Run config observer past now s)
    (due : s.next? = some (c, rest)) (course : Site.Course later rest)
    (named : n ∈ s.pool.registry.names) (back : c.bind Command.returned? = some n.1)
    (lent : s.pool.registry.slot? n.1 = some .onLoan)
    (inactive : (course.amid []).isActive n.2 = false) :
    [.close n.2] <+: (course.turn c).effects := by
  obtain ⟨⟨m, path⟩, quiet⟩ := path_of_run run
  have accounted := path_invariant path accounted_move (accounted_start config observer)
  obtain ⟨c', rfl, back⟩ := Option.bind_eq_some_iff.mp back
  have known := Registry.serial?_of_mem_names accounted.balanced.named named
  rw [Site.Course.turn, Site.pool_next? due]
  have closes := closes_of_returned (w := Site.surroundings course.amid) back lent known inactive
  obtain ⟨es, adds, -⟩ := Pool.adds_handle course.lasting quiet c'
  rw [Pool.respond, adds.effects]
  exact closes.trans (List.prefix_append _ _)

/-- A connection that is idle, and inactive as long as the turn goes on, is delivered to nobody. -/
theorem undelivered_of_turn (run : Site.Run config observer past now s)
    (due : s.next? = some (c, rest)) (course : Site.Course later rest)
    (named : n ∈ s.pool.registry.names) (idle : n.1 ∈ s.pool.registry.idle)
    (inactive : ∀ done, done <+: (course.turn c).effects →
      (course.amid done).isActive n.2 = false) :
    ∀ e ∈ (course.turn c).effects, e.delivers? ≠ some n.2 := by
  intro e member delivers
  obtain ⟨m, held⟩ := run_invariant Scene.Reusing run reusing_move
    (reusing_start config observer)
  obtain ⟨front, back, split⟩ := List.append_of_mem member
  rcases sound_respond (w := Site.surroundings course.amid) (p := rest.pool) c front e back n.2
    split delivers with ⟨c', command, exempt⟩ | ⟨asked, aside, rfl, active, -⟩
  · -- A connection that is idle is not being checked.
    have opened := held.attended.watched.traced.named n named
    obtain ⟨reply, -, checking, -⟩ := checked_of_exempts run due opened command exempt
    have slot := (held.attended.watched.kept.accounted.balanced.idle n.1).mp idle
    simp [Registry.isChecking, slot] at checking
  · have before : asked <+: (course.turn c).effects := by
      rw [split, List.append_assoc]
      exact List.prefix_append _ _
    cases (inactive asked before).symm.trans active

/-- What is delivered once more was asked whether it is active, and said so, before the hook was
called for it, or it comes from a good verdict. What is idle stays so, unless it is closed or lent,
or found to have closed itself. An idle connection that is inactive is delivered to nobody, so it is
closed if it goes; one that comes back inactive is closed first of all. And as long as somebody
waits, no connection is idle and no capacity is left. -/
theorem reused_when_asked (run : Site.Run config observer past now s) (order : now ≤ later)
    (due : s.next? = some (c, rest)) (course : Site.Course later rest) :
    (∀ front e back serial, (course.turn c).effects = front ++ e :: back →
      e.delivers? = some serial →
      (∃ rec ∈ past, ∃ k id, rec.effect = some (.answer k (.loan id serial))) →
        Asked (Site.surroundings course.amid) serial front ∨
          ∃ id reply, c = some (.checked id true reply) ∧
            s.pool.registry.serial? id = some serial) ∧
    (∀ n ∈ s.pool.registry.names, n.1 ∈ s.pool.registry.idle →
      n.1 ∈ (course.after c).pool.registry.idle ∨ c = some (.closed n.1) ∨
        .close n.2 ∈ (course.turn c).effects ∨
        ∃ k, .answer k (.loan n.1 n.2) ∈ (course.turn c).effects) ∧
    (∀ n ∈ s.pool.registry.names, n.1 ∈ s.pool.registry.idle →
      (∀ done, done <+: (course.turn c).effects → (course.amid done).isActive n.2 = false) →
        (∀ e ∈ (course.turn c).effects, e.delivers? ≠ some n.2) ∧
          (n.1 ∈ (course.after c).pool.registry.idle ∨ c = some (.closed n.1) ∨
            .close n.2 ∈ (course.turn c).effects)) ∧
    (∀ n ∈ s.pool.registry.names, c.bind Command.returned? = some n.1 →
      s.pool.registry.slot? n.1 = some .onLoan → (course.amid []).isActive n.2 = false →
        [.close n.2] <+: (course.turn c).effects) ∧
    ((course.after c).pool.pending.requests = [] ∨ (course.after c).pool.registry.idle = [] ∧
      config.maxConnections ≤ (course.after c).pool.registry.acquired) := by
  refine ⟨?_, ?_, ?_, ?_, ?_⟩
  · intro front e back serial split delivers lent
    exact asked_of_turn run due course split delivers lent
  · intro n named idle
    exact parted_of_turn run order due course named idle
  · intro n named idle inactive
    have undelivered := undelivered_of_turn run due course named idle inactive
    refine ⟨undelivered, ?_⟩
    rcases parted_of_turn run order due course named idle with still | noticed | closes | lent
    · exact .inl still
    · exact .inr (.inl noticed)
    · exact .inr (.inr closes)
    · obtain ⟨k, lends⟩ := lent
      exact absurd rfl (undelivered _ lends)
  · intro n named back lent inactive
    exact closes_of_turn run due course named back lent inactive
  · have quiet := (path_of_run (.turn run order due course)).2
    rw [← config_of_run (.turn run order due course)]
    exact quiet

/-- A connection comes back healthy, and is asked for again. -/
def reacquired : List (Nat × Option Site.Event) :=
  [(0, some (.acquire ⟨1⟩)), (0, none), (2, some (.connected ⟨0⟩ (.ok (⟨1⟩, {})))), (2, none),
    (3, some (.read ⟨1⟩)), (4, some (.release ⟨1⟩ ⟨2⟩)), (4, none), (6, some (.checked ⟨1⟩ true)),
    (6, none), (7, some (.acquire ⟨3⟩))]

theorem asked_of_reacquired :
    ∃ past now s c rest, Site.Run {} (fun _ _ => none) past now s ∧ now ≤ 9 ∧
      s.next? = some (c, rest) ∧
      ((Site.Course.alone 9 rest).turn c).effects =
        [.hook .acquired ⟨1⟩ none, .answer ⟨3⟩ (.loan ⟨1⟩ ⟨1⟩)] ∧
      (∃ rec ∈ past, ∃ k id, rec.effect = some (.answer k (.loan id ⟨1⟩))) ∧
      rest.isActive ⟨1⟩ = true := by
  obtain ⟨past, now, s, c, rest, run, order, due, seen⟩ :=
    Site.exists_due {} (fun _ _ => none) reacquired 9
      (fun past _ c rest => (c.bind Command.checked?).isNone &&
        ((Site.Course.alone 9 rest).turn c).effects ==
          [.hook .acquired ⟨1⟩ none, .answer ⟨3⟩ (.loan ⟨1⟩ ⟨1⟩)] &&
        past.any fun rec => rec.effect == some (.answer ⟨1⟩ (.loan ⟨1⟩ ⟨1⟩)))
      (by decide +kernel)
  simp only [Bool.and_eq_true, beq_iff_eq, List.any_eq_true] at seen
  obtain ⟨⟨asks, effects⟩, rec, member, lent⟩ := seen
  obtain ⟨delivered, -⟩ := reused_when_asked run order due (.alone 9 rest)
  refine ⟨past, now, s, c, rest, run, order, due, effects, ⟨rec, member, _, _, lent⟩, ?_⟩
  rcases delivered [] _ _ ⟨1⟩ effects rfl ⟨rec, member, _, _, lent⟩ with
    ⟨asked, aside, split, active, -⟩ | ⟨id, reply, rfl, -⟩
  · obtain ⟨rfl, -⟩ := List.append_eq_nil_iff.mp split.symm
    exact active
  · cases asks

/-- A connection is found healthy and breaks before the verdict is taken up; somebody waits. -/
def brokenLate : List (Nat × Option Site.Event) :=
  [(0, some (.acquire ⟨1⟩)), (0, none), (2, some (.connected ⟨0⟩ (.ok (⟨1⟩, {})))), (2, none),
    (3, some (.read ⟨1⟩)), (4, some (.acquire ⟨2⟩)), (4, none), (5, some (.release ⟨1⟩ ⟨3⟩)),
    (5, none), (7, some (.checked ⟨1⟩ true)), (8, some (.kill ⟨1⟩))]

/-- The waiter is lent a connection that has not been active since the turn began. -/
theorem unasked_of_brokenLate :
    ¬∀ config observer past now s c rest later, Site.Run config observer past now s →
      now ≤ later → s.next? = some (c, rest) → ∀ course : Site.Course later rest,
        ∀ front e back serial, (course.turn c).effects = front ++ e :: back →
          e.delivers? = some serial →
          (∃ rec ∈ past, ∃ k id, rec.effect = some (.answer k (.loan id serial))) →
            ∃ asked, asked <+: front ∧ (course.amid asked).isActive serial = true := by
  intro claim
  obtain ⟨past, now, s, c, rest, run, order, due, seen⟩ :=
    Site.exists_due { maxConnections := 1 } (fun _ _ => none) brokenLate 9
      (fun past _ c rest =>
        past.any (fun rec => rec.effect == some (.answer ⟨1⟩ (.loan ⟨1⟩ ⟨1⟩))) &&
          ((Site.Course.alone 9 rest).turn c).effects == [.hook .acquired ⟨1⟩ none,
            .answer ⟨2⟩ (.loan ⟨1⟩ ⟨1⟩), .answer ⟨3⟩ .done] && !rest.isActive ⟨1⟩)
      (by decide +kernel)
  simp only [Bool.and_eq_true, beq_iff_eq, List.any_eq_true, Bool.not_eq_true'] at seen
  obtain ⟨⟨⟨rec, member, lent⟩, effects⟩, broken⟩ := seen
  obtain ⟨asked, before, active⟩ := claim _ _ past now s c rest 9 run order due (.alone 9 rest) []
    _ _ ⟨1⟩ effects rfl ⟨rec, member, _, _, lent⟩
  obtain rfl := List.prefix_nil.mp before
  change rest.isActive ⟨1⟩ = true at active
  rw [broken] at active
  cases active

end LoanPool
