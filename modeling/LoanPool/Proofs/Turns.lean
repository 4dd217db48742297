import LoanPool.Proofs.Quiescence
import LoanPool.Proofs.Unfolding

/-!
# Turns as paths

The loops that serve callers, the commands, and the whole turn of a pool, each as a path of moves
that starts with something in hand and ends with nothing. A run is then one path from the start.
-/
namespace LoanPool
open Pending (Request)

variable {z : Setting} {t t' : Turn} {h : Hand} {id : ConnId}

/-! ### Serving -/

theorem path_checkout {found : Option ConnId} (free : h.task = none)
    (opened : t.pool.closed = false) (taken : t.checkout z.world = (found, t')) :
    Path (z.scene t { h with conn := none, stage := .spare })
      (z.scene t' { h with conn := found, stage := .spare }) := by
  fun_induction Turn.checkout z.world t with
  | case1 t empty =>
    cases taken
    exact .refl
  | case2 t id r found active =>
    cases taken
    exact .single (.checkout free rfl opened found)
  | case3 t id r found inactive ih =>
    -- A stale connection is closed on the way, and the search goes on.
    have held : Path (z.scene t { h with conn := none, stage := .spare })
        (z.scene (t.withRegistry r) { h with conn := some id, stage := .spare }) :=
      .single (.checkout free rfl opened found)
    have still : ((t.withRegistry r).discard z.world id).pool.closed = false := by
      rw [Turn.closed_discard]
      exact opened
    exact (held.trans (path_discard rfl (by simp))).trans (ih still taken)

/-- A connection is opened when none is idle and there is room. -/
theorem path_openFor {r : Request} (unarmed : r.timer = none) (opened : t.pool.closed = false)
    (drained : t.pool.registry.idle = [])
    (room : t.pool.registry.acquired < t.pool.config.maxConnections) :
    Path (z.scene t { requests := [r] }) (z.scene (t.openFor z.world (.owned r)) {}) := by
  simp only [Turn.openFor]
  split
  · next reachable =>
    exact path_of_emit (.connect rfl opened unarmed reachable drained room)
  · next lost =>
    -- Nobody is left to report a connection to, so none is opened.
    have grounds : z.Grounds t .poolClosed := .inr (by simpa using lost)
    exact path_fail (h := { requests := [r] }) rfl grounds

/-- What is in hand when a connection has been offered to a caller: nothing, unless the caller had
gone. -/
def Hand.offered (id : ConnId) (ks : List Ticket) (gone : Bool) : Hand :=
  if gone then { conn := some id, stage := .told .acquired none, replies := ks }
  else { replies := ks }

theorem past_emit (z : Setting) (t : Turn) (e : Effect) (h : Hand) :
    (z.scene (t.emit e) h).past =
      (z.scene t h).past ++
        [{ now := z.now, command := z.memory.command, effect := some e, pool := t.pool }] := by
  simp [Setting.scene, Turn.emit]

theorem promised_call {r : Request} {serial : Serial}
    (agreed : t.refusal z.world .acquired serial = none) :
    (z.scene ((t.call z.world .acquired serial).disarm r) h).Promised serial := by
  have called := past_emit z t (.hook .acquired serial none) h
  simp only [Turn.call, Turn.disarm, agreed]
  split
  · next timer armed =>
    have disarmed := past_emit z (t.emit (.hook .acquired serial none)) (.disarm timer) h
    rw [called, List.append_assoc] at disarmed
    exact ⟨_, _, _, disarmed, rfl, rfl, rfl, List.forall_mem_singleton.mpr ⟨timer, rfl⟩⟩
  · exact ⟨_, _, _, called, rfl, rfl, rfl, List.forall_mem_nil _⟩

def Turn.offer (w : Surroundings) (t : Turn) (r : Request) (id : ConnId) (serial : Serial) :
    Bool × Turn :=
  let called := t.call w .acquired serial
  match t.refusal w .acquired serial with
  | some reason => (false, (called.discard w id).fail r (.observer reason))
  | none =>
    let settled := called.disarm r
    if w.gone settled.effects r.ticket then (true, settled)
    else (false, settled.answer r.ticket (.loan id serial))

/-- A connection in use is registered, so no attempt fails for want of it. -/
theorem Turn.attempt_of_slot {w : Surroundings} {slot : Slot}
    (used : t.pool.registry.slot? id = some slot) (r : Request) :
    ∃ serial, t.pool.registry.serial? id = some serial ∧
      t.attempt w r id = t.offer w r id serial := by
  obtain ⟨e, found, -⟩ := Registry.find?_of_slot? used
  have known : t.pool.registry.serial? id = some e.serial := by
    rw [Registry.serial?, found, Option.map_some]
  refine ⟨e.serial, known, ?_⟩
  simp only [Turn.attempt, known]
  rfl

theorem path_attempt (ks : List Ticket) {r : Request} {stage : Stage}
    (lent : t.pool.registry.slot? id = some .onLoan) (ready : stage.isReady = true) :
    Path (z.scene t { requests := [r], conn := some id, stage, replies := ks })
      (z.scene (t.attempt z.world r id).2 (.offered id ks (t.attempt z.world r id).1)) := by
  obtain ⟨serial, known, tried⟩ := Turn.attempt_of_slot (w := z.world) lent r
  have timely : stage.calls .acquired = true := by
    cases stage <;> exact ready
  have called : Path (z.scene t { requests := [r], conn := some id, stage, replies := ks })
      (z.scene (t.call z.world .acquired serial)
        { requests := [r], conn := some id
          stage := .told .acquired (t.refusal z.world .acquired serial), replies := ks }) :=
    path_call .acquired rfl known timely (by simp)
  rw [tried, Turn.offer]
  dsimp only
  split
  · next reason refused =>
    have grounds : z.Grounds ((t.call z.world .acquired serial).discard z.world id)
        (.observer reason) := trivial
    exact (called.trans (path_discard rfl (by simp))).trans (path_fail rfl grounds)
  · next agreed =>
    rw [agreed] at called
    have disarmed := called.trans (path_disarm rfl)
    split
    · next left => exact disarmed.tail (.forsake rfl rfl ((gone_iff _ _).mp left))
    · next present =>
      refine disarmed.trans
        (path_of_emit (.lend (r := { r with timer := none }) rfl rfl rfl ?_ ?_ ?_ rfl
          (promised_call agreed)))
      · simpa [Setting.scene, Scene.registry] using known
      · simpa [Setting.scene, Scene.registry] using lent
      · exact fun left => present ((gone_iff _ _).mpr left)

/-- A connection that nobody waits for is put away or closed. -/
theorem path_shelve (held : h.conn = some id) (unwanted : t.pool.pending.requests = [])
    (fit : (z.scene t h).Fit id) (ready : h.stage.isReady = true) :
    Path (z.scene t h)
      (z.scene (t.shelve z.world id) { h with conn := none, stage := .spare }) := by
  simp only [Turn.shelve]
  split
  · refine path_discard held fun opened => ?_
    rw [opened] at ready
    cases ready
  · next kept => exact .single (.checkIn held unwanted kept fit ready)

theorem fit_of_lent {sc : Scene} (lent : sc.registry.slot? id = some .onLoan) : sc.Fit id := by
  intro checking
  simp [Registry.isChecking, lent] at checking

theorem fit_of_same (fit : (z.scene t h).Fit id)
    (registry : t'.pool.registry = t.pool.registry) (config : t'.pool.config = t.pool.config)
    (h' : Hand) : (z.scene t' h').Fit id := by
  intro checking checks
  change t'.pool.registry.isChecking id = true at checking
  change t'.pool.config.checkOnRelease = true at checks
  rw [registry] at checking
  rw [config] at checks
  exact fit checking checks

/-- A connection that came back is offered to the oldest caller who still waits. -/
theorem path_offer (ks : List Ticket) {r : Request} {slot : Slot} {stage : Stage}
    (known : t.pool.registry.slot? id = some slot) (used : slot ≠ .idle)
    (fit : (z.scene t h).Fit id) (ready : stage.isReady = true)
    (popped : t.popLive z.world = (some r, t')) :
    Path (z.scene t { conn := some id, stage, replies := ks })
      (z.scene ((t'.handOver id).attempt z.world r id).2
        (.offered id ks ((t'.handOver id).attempt z.world r id).1)) := by
  have held : Path (z.scene t { conn := some id, stage, replies := ks })
      (z.scene t' { requests := [r], conn := some id, stage, replies := ks }) :=
    path_popLive (h := { conn := some id, stage, replies := ks }) rfl rfl popped
  have fit' := fit_of_same fit (Turn.registry_popLive popped) (Turn.config_popLive popped)
    { requests := [r], conn := some id, stage, replies := ks }
  exact (held.tail (.handOver rfl fit')).trans
    (path_attempt ks (Turn.slot_handOver known used popped) ready)

theorem path_recycle (ks : List Ticket)
    (inUse : ∃ slot, t.pool.registry.slot? id = some slot ∧ slot ≠ .idle)
    (fit : (z.scene t {}).Fit id) {stage : Stage} :
    stage.isReady = true →
    Path (z.scene t { conn := some id, stage, replies := ks })
      (z.scene (t.recycle z.world id) { replies := ks }) := by
  -- Each round of the loop loses one waiter, and a waiter that has left leaves the pool as it was.
  revert stage
  fun_induction Turn.recycle z.world t id with
  | case1 t t' popped =>
    intro stage ready
    have unwanted := Turn.requests_popLive_none popped
    have fit' := fit_of_same fit (Turn.registry_popLive popped) (Turn.config_popLive popped)
      { conn := some id, stage, replies := ks }
    exact (path_popLive (h := { conn := some id, stage, replies := ks }) rfl rfl popped).trans
      (path_shelve rfl unwanted fit' ready)
  | case2 t r t' popped offered left ih =>
    intro stage ready
    obtain ⟨slot, known, used⟩ := inUse
    have tried := path_offer ks known used fit ready popped
    rw [left] at tried
    have still : offered.2.pool.registry.slot? id = some .onLoan := by
      rw [Turn.pool_attempt left]
      exact Turn.slot_handOver known used popped
    exact tried.trans (ih ⟨.onLoan, still, by simp⟩ (fit_of_lent still) rfl)
  | case3 t r t' popped offered taken =>
    intro stage ready
    obtain ⟨slot, known, used⟩ := inUse
    have tried := path_offer ks known used fit ready popped
    rwa [Bool.eq_false_iff.mpr taken] at tried

theorem path_deliver {r : Request} {stage : Stage}
    (lent : t.pool.registry.slot? id = some .onLoan) (ready : stage.isReady = true) :
    Path (z.scene t { requests := [r], conn := some id, stage })
      (z.scene (t.deliver z.world r id) {}) := by
  have tried := path_attempt (z := z) (r := r) [] lent ready
  simp only [Turn.deliver]
  split
  · next left =>
    rw [left] at tried
    have still : (t.attempt z.world r id).2.pool.registry.slot? id = some .onLoan := by
      rw [Turn.pool_attempt left]
      exact lent
    exact tried.trans (path_recycle [] ⟨.onLoan, still, by simp⟩ (fit_of_lent still) rfl)
  · next taken => rwa [Bool.eq_false_iff.mpr taken] at tried

theorem path_serve (opened : t.pool.closed = false) :
    Path (z.scene t {}) (z.scene (t.serve z.world) {}) := by
  fun_induction Turn.serve z.world t with
  | case1 t nobody => exact .refl
  | case2 t waiting id t' found r t'' popped ih =>
    have taken : Path (z.scene t {}) (z.scene t' { conn := some id }) :=
      path_checkout (h := {}) rfl opened found
    have lent : t''.pool.registry.slot? id = some .onLoan := by
      rw [Turn.registry_popLive popped]
      exact Turn.slot_checkout found
    have still : (t''.deliver z.world r id).pool.closed = false := by
      rw [Turn.closed_deliver, Turn.closed_popLive popped, Turn.closed_checkout found]
      exact opened
    exact ((taken.trans (path_popLive rfl rfl popped)).trans (path_deliver lent rfl)).trans
      (ih still)
  | case3 t waiting id t' found t'' popped =>
    have taken : Path (z.scene t {}) (z.scene t' { conn := some id }) :=
      path_checkout (h := {}) rfl opened found
    have lent : t''.pool.registry.slot? id = some .onLoan := by
      rw [Turn.registry_popLive popped]
      exact Turn.slot_checkout found
    exact (taken.trans (path_popLive rfl rfl popped)).tail
      (.putBack rfl (Turn.requests_popLive_none popped) lent rfl)
  | case4 t waiting t' found room r t'' popped ih =>
    have searched : Path (z.scene t {}) (z.scene t' {}) := path_checkout (h := {}) rfl opened found
    have disarmed := (searched.trans (path_popLive rfl rfl popped)).trans (path_disarm rfl)
    have still : (t''.disarm r).pool.closed = false := by
      rw [Turn.pool_disarm, Turn.closed_popLive popped, Turn.closed_checkout found]
      exact opened
    -- The search has left no idle connection, and taking a waiter brings none back.
    have drained : (t''.disarm r).pool.registry.idle = [] := by
      rw [Turn.pool_disarm, Turn.registry_popLive popped]
      exact Turn.idle_checkout found
    rw [← Turn.registry_popLive popped, ← Turn.config_popLive popped,
      ← Turn.pool_disarm t'' r] at room
    exact (disarmed.trans (path_openFor rfl still drained room)).trans
      (ih (Turn.closed_openFor.trans still))
  | case5 t waiting t' found room t'' popped =>
    have searched : Path (z.scene t {}) (z.scene t' {}) := path_checkout (h := {}) rfl opened found
    exact searched.trans (path_popLive rfl rfl popped)
  | case6 t waiting t' found full => exact path_checkout (h := {}) rfl opened found

theorem path_servePending : Path (z.scene t {}) (z.scene (t.servePending z.world) {}) := by
  simp only [Turn.servePending]
  split
  · exact .refl
  · next opened => exact path_serve (by simpa using opened)

/-! ### Commands -/

theorem path_lineUp {r : Request} (asked : z.memory.command = some (.acquire r.ticket))
    (unarmed : r.timer = none) (opened : t.pool.closed = false)
    (newest : r.id.number + 1 = t.pool.nextRequest) :
    Path (z.scene t { requests := [r], fresh := true }) (z.scene (t.lineUp z.world r) {}) := by
  have pruned : Path (z.scene t { requests := [r], fresh := true })
      (z.scene (t.prune z.world) { requests := [r], fresh := true }) := path_prune rfl
  have still : (t.prune z.world).pool.closed = false := by
    simpa [Turn.prune, Turn.withPending] using opened
  have named : r.id.number + 1 = (t.prune z.world).pool.nextRequest := by
    simpa [Turn.prune, Turn.withPending] using newest
  simp only [Turn.lineUp]
  split
  · exact (pruned.tail (.settle rfl)).trans (path_refused (h := { requests := [r] })
      (.admissionRejected (t.prune z.world).pool.pending.requests.length
        (t.prune z.world).pool.pending.limit) rfl unarmed (by simp) (by simp))
  · next room =>
    have room : (t.prune z.world).pool.pending.isFull = false := by simpa using room
    simp only [Turn.enqueue]
    split
    · next timeout limited =>
      have armed : Path (z.scene (t.prune z.world) { requests := [r], fresh := true })
          (z.scene ((t.prune z.world).emit (.arm ⟨r.id.number⟩ r.id timeout))
            { requests := [{ r with timer := some ⟨r.id.number⟩ }] }) :=
        path_of_emit (.arm rfl unarmed limited named rfl)
      refine (pruned.trans armed).tail (.enqueue rfl still named room asked fun timeout' eq => ?_)
      cases limited.symm.trans eq
      exact ⟨_, by simp [Setting.scene, Turn.emit]; rfl, rfl, rfl⟩
    · next unlimited =>
      refine pruned.tail (.enqueue rfl still named room asked fun timeout eq => ?_)
      cases unlimited.symm.trans eq

theorem path_acquire {k : Ticket} (quiet : t.pool.Quiet)
    (same : z.memory.command = some (.acquire k)) :
    Path (z.scene t { task := some (some (.acquire k)) }) (z.scene (t.acquire z.world k) {}) := by
  unfold Turn.acquire
  split
  · next closed => exact path_of_emit (.refuse rfl closed)
  · next opened =>
    have opened : t.pool.closed = false := by simpa using opened
    have named : Path (z.scene t { task := some (some (.acquire k)) })
        (z.scene (t.newRequest k).2 { requests := [(t.newRequest k).1], fresh := true }) :=
      .single (.acquire rfl opened quiet)
    dsimp only
    split
    · next id t' found =>
      have taken := path_checkout (z := z) (t := (t.newRequest k).2)
        (h := { requests := [(t.newRequest k).1], fresh := true }) rfl opened found
      exact ((named.trans taken).tail (.settle rfl)).trans
        (path_deliver (Turn.slot_checkout found) rfl)
    · next t' found =>
      have searched := path_checkout (z := z) (t := (t.newRequest k).2)
        (h := { requests := [(t.newRequest k).1], fresh := true }) rfl opened found
      have still : t'.pool.closed = false := (Turn.closed_checkout found).trans opened
      split
      · next room =>
        exact ((named.trans searched).tail (.settle rfl)).trans
          (path_openFor rfl still (Turn.idle_checkout found) room)
      · have newest : t.pool.nextRequest + 1 = t'.pool.nextRequest :=
          (Turn.nextRequest_checkout found).symm
        exact (named.trans searched).trans (path_lineUp same rfl still newest)

theorem path_place {target : Target} {result : Except String Serial} {stage : Stage}
    (same : z.memory.command = some (.connected target result))
    (lent : t.pool.registry.slot? id = some .onLoan) (ready : stage.isReady = true) :
    Path (z.scene t { conn := some id, stage, requests := target.requests })
      (z.scene (t.place z.world target id) {}) := by
  cases target with
  | owned r => exact path_deliver lent ready
  | queued request =>
    have called : ∀ h, (z.scene t h).Calls request := fun _ => .inl ⟨result, same⟩
    simp only [Turn.place]
    -- The request may have been served before its connection is there.
    match found : t.takePending request with
    | (some r, t') =>
      have fetched := path_takePending (z := z) (h := { conn := some id, stage }) rfl rfl (called _)
        found
      have still : t'.pool.registry.slot? id = some .onLoan := by
        rw [Turn.registry_takePending found]
        exact lent
      exact fetched.trans (path_deliver still ready)
    | (none, t') =>
      have fetched := path_takePending (z := z) (h := { conn := some id, stage }) rfl rfl (called _)
        found
      have still : t'.pool.registry.slot? id = some .onLoan := by
        rw [Turn.registry_takePending found]
        exact lent
      exact fetched.trans (path_recycle [] ⟨.onLoan, still, by simp⟩ (fit_of_lent still) ready)

theorem path_connected {target : Target} {result : Except String Serial}
    (same : z.memory.command = some (.connected target result)) :
    Path (z.scene t { task := some (some (.connected target result)) })
      (z.scene (t.connected z.world target result) {}) := by
  have called : ∀ {t h} id, target = .queued id → (z.scene t h).Calls id := by
    rintro t h id rfl
    exact .inl ⟨result, same⟩
  cases result with
  | error cause =>
    have cancelled : Path (z.scene t { task := some (some (.connected target (.error cause))) })
        (z.scene (t.withRegistry t.pool.registry.cancelReservation)
          { requests := target.requests }) :=
      .single (.connectFailed rfl)
    have grounds : z.Grounds (t.withRegistry t.pool.registry.cancelReservation) (.connect cause) :=
      trivial
    exact cancelled.trans (path_failTarget target rfl rfl called grounds)
  | ok serial =>
    have registered : Path (z.scene t { task := some (some (.connected target (.ok serial))) })
        (z.scene (t.register serial).2
          { conn := some ⟨t.pool.nextConn⟩, stage := .opened, requests := target.requests }) :=
      path_of_emit (.connectDone rfl)
    simp only [Turn.connected]
    split
    · next closed =>
      have grounds : z.Grounds ((t.register serial).2.discard z.world ⟨t.pool.nextConn⟩)
          .poolClosed := by
        refine .inl ?_
        rw [Turn.closed_discard]
        exact closed
      exact (registered.trans (path_discard rfl fun _ => closed)).trans
        (path_failTarget target rfl rfl called grounds)
    · next opened =>
      have lent : (t.register serial).2.pool.registry.slot? ⟨t.pool.nextConn⟩ = some .onLoan :=
        Registry.slot?_register.trans (if_pos rfl)
      have known : (t.register serial).2.pool.registry.serial? ⟨t.pool.nextConn⟩ = some serial :=
        Registry.serial?_register_self
      have called' := registered.trans
        (path_call .created rfl known rfl fun _ => Bool.eq_false_iff.mpr opened)
      split
      · next reason refused =>
        have grounds : z.Grounds (((t.register serial).2.call z.world .created serial).discard
            z.world ⟨t.pool.nextConn⟩) (.observer reason) := trivial
        exact (called'.trans (path_discard rfl (by simp))).trans
          (path_failTarget target rfl rfl called grounds)
      · next agreed =>
        rw [agreed] at called'
        exact called'.trans (path_place same lent rfl)

/-- A loan comes to its end, by a command that may ask for an answer. -/
theorem path_takeBack {c : Command} {reply : Option Ticket} (back : c.returned? = some id)
    (same : z.memory.command = some c) (asked : c.replies = reply.toList)
    (moot : t.pool.registry.beginCheck? id = none → c.Moot t.pool) :
    Path (z.scene t { task := some (some c) }) (z.scene (t.takeBack z.world id reply) {}) := by
  have dismissed : t.pool.registry.beginCheck? id = none →
      Path (z.scene t { task := some (some c) }) (z.scene (t.answer? reply .done) {}) := by
    intro unlent
    have idle : Path (z.scene t { task := some (some c) }) (z.scene t { replies := c.replies }) :=
      .single (.dismiss rfl (moot unlent))
    exact idle.trans (path_answer? asked (.inl rfl))
  unfold Turn.takeBack
  split
  · next closed =>
    -- A closed pool closes what comes back, on loan or not.
    simp only [Turn.discard]
    split
    · next serial r removed =>
      have seized : Path (z.scene t { task := some (some c) })
          (z.scene ((t.withRegistry r).emit (.close serial)) { replies := c.replies }) :=
        path_of_emit (.seize rfl back closed (fun _ => rfl) removed)
      exact seized.trans (path_answer? asked (.inl rfl))
    · next kept =>
      have unknown : t.pool.registry.find? id = none := Registry.find?_of_kept kept
      exact dismissed (by rw [Registry.beginCheck?, unknown])
  · next opened =>
    have opened : t.pool.closed = false := by simpa using opened
    split
    · next unlent => exact dismissed unlent
    · next serial r lent =>
      have checking := Registry.slot?_beginCheck? lent
      have known := Registry.serial?_beginCheck? lent
      have begun : Path (z.scene t { task := some (some c) })
          (z.scene (t.withRegistry r)
            { conn := some id, stage := .returned, replies := c.replies }) :=
        .single (.takeBack rfl back opened lent)
      have slot : r.slot? id = some .checking := (checking.2 id).trans (if_pos rfl)
      dsimp only
      split
      · exact (begun.trans (path_discard rfl (by simp))).trans
          (path_answer? asked (.inl rfl))
      · have called := begun.trans (path_call .released rfl known rfl (by simp))
        split
        · exact (called.trans (path_discard rfl (by simp))).trans
            (path_answer? asked (.inr ⟨_, rfl⟩))
        · next agreed =>
          rw [agreed] at called
          split
          · next unchecked =>
            have fit : (z.scene ((t.withRegistry r).call z.world .released serial) {}).Fit id :=
              fun _ checks => Bool.noConfusion (unchecked.symm.trans (congrArg (!·) checks))
            exact (called.trans (path_recycle _ ⟨.checking, slot, by simp⟩ fit rfl)).trans
              (path_answer? asked (.inl rfl))
          · split
            · next reachable =>
              have checking : r.isChecking id = true := by simpa [Registry.isChecking] using slot
              have started : Path
                  (z.scene ((t.withRegistry r).call z.world .released serial)
                    { conn := some id, stage := .told .released none, replies := c.replies })
                  (z.scene (((t.withRegistry r).call z.world .released serial).emit
                    (.check id serial reply)) {}) :=
                path_of_emit (.check rfl asked reachable known checking
                  ((congrArg (·.bind Command.returned?) same).trans back) rfl)
              exact called.trans started
            · exact (called.trans (path_discard rfl (by simp))).trans
                (path_answer? asked (.inl rfl))

theorem path_checked {healthy : Bool} {reply : Option Ticket}
    (same : z.memory.command = some (.checked id healthy reply)) :
    Path (z.scene t { task := some (some (.checked id healthy reply)) })
      (z.scene (t.checked z.world id healthy reply) {}) := by
  simp only [Turn.checked]
  split
  · next other =>
    have other : t.pool.registry.isChecking id = false := by simpa using other
    have dismissed : Path (z.scene t { task := some (some (.checked id healthy reply)) })
        (z.scene t { replies := reply.toList }) :=
      .single (.dismiss (c := .checked id healthy reply) rfl other)
    exact dismissed.trans (path_answer? rfl (.inl rfl))
  · next checking =>
    have checking : t.pool.registry.isChecking id = true := by simpa using checking
    have judged : Path (z.scene t { task := some (some (.checked id healthy reply)) })
        (z.scene t { conn := some id, stage := .judged, replies := reply.toList }) :=
      .single (.verdict rfl checking)
    refine Relation.ReflTransGen.trans ?_
      (path_answer? (h := { replies := reply.toList }) rfl (.inl rfl))
    split
    · next fine =>
      have slot : t.pool.registry.slot? id = some .checking := by
        simpa [Registry.isChecking] using checking
      have fit : (z.scene t {}).Fit id := fun _ _ => ⟨reply, fine ▸ same⟩
      exact judged.trans (path_recycle _ ⟨.checking, slot, by simp⟩ fit rfl)
    · exact judged.trans (path_discard rfl (by simp))

theorem Pending.Queue.find?_replace {q : Pending.Queue} {request : RequestId} {r r' : Request}
    (queued : q.find? request = some r) (same : r'.id = request) :
    (q.replace request r').find? request = some r' := by
  simp only [Pending.Queue.find?, Pending.Queue.replace] at queued ⊢
  generalize q.requests = rs at queued
  induction rs with
  | nil => cases queued
  | cons first rest ih =>
    by_cases here : first.id = request
    · simp [List.findIdx_cons, here, same]
    · simp only [List.find?_cons, here, decide_false] at queued
      simpa [List.findIdx_cons, List.find?_cons, here] using ih queued

/-- A deadline asks for a connection past capacity only while the request waits, so in a quiet pool
none is idle then. -/
theorem path_timedOut {request : RequestId} (quiet : t.pool.Quiet)
    (same : z.memory.command = some (.timedOut request))
    (begun : ∀ rec, (z.scene t {}).past.getLast? = some rec → rec.effect = none) :
    Path (z.scene t { task := some (some (.timedOut request)) })
      (z.scene (t.timedOut z.world request) {}) := by
  unfold Turn.timedOut
  split
  · next served => exact .single (.dismiss (c := .timedOut request) rfl served)
  · next r queued =>
    obtain ⟨drained, full⟩ : t.pool.registry.idle = [] ∧
        t.pool.config.maxConnections ≤ t.pool.registry.acquired := by
      rcases quiet with nobody | spent
      · simp [Pending.Queue.find?, nobody] at queued
      · exact spent
    have named : (t.pool.config.expire r).2.id = request :=
      (id_expire t.pool.config r).trans (by simpa using List.find?_some queued)
    have expired (lost : (t.pool.config.expire r).1 = .openOverflow →
          z.world.reachable t.effects = false) :
        Path (z.scene t { task := some (some (.timedOut request)) })
          (z.scene ((t.withPending
            (t.pool.pending.replace request (t.pool.config.expire r).2)).count
              (t.pool.config.expire r).1.counted) {}) :=
      .single (.expire rfl queued lost)
    dsimp only
    split
    · next after eq =>
      rw [eq] at expired
      have called : Scene.Calls (z.scene (t.withPending
          (t.pool.pending.replace request (t.pool.config.expire r).2)) {}) request :=
        .inr ⟨same, ⟨rfl, drained, full⟩, .inl (action_of_expire eq)⟩
      split
      · next r' t' found =>
        have fetched := (expired (by simp)).trans (path_takePending (h := {}) rfl rfl called found)
        have taken : r' = (t.pool.config.expire r).2 :=
          Option.some.inj ((Turn.find?_takePending found).symm.trans
            (Pending.Queue.find?_replace queued named))
        have overdue : Scene.Overdue (z.scene t' { requests := [r'] }) r' after := by
          refine ⟨?_, ?_, ?_, ?_⟩
          · exact same.trans (by rw [taken, named])
          · exact (congrArg _ (Turn.config_takePending found)).trans (action_of_expire eq)
          · exact (congrArg _ (Turn.config_takePending found)).trans (limit_of_expire eq)
          · have untouched := Turn.log_takePending found
            change t'.log = t.log at untouched
            simpa only [Setting.scene, untouched] using begun
        refine fetched.trans (path_refused (h := { requests := [r'] })
          (.acquireTimedOut after) rfl ?_ (by simp) ?_)
        · rw [taken, timer_expire]
        · rintro after' eq'
          cases eq'
          exact overdue
      · next t' found =>
        exact (expired (by simp)).trans (path_takePending (h := {}) rfl rfl called found)
    · next eq =>
      have due : t.pool.config.expire r = (.openOverflow, (t.pool.config.expire r).2) :=
        Prod.ext eq rfl
      simp only [Turn.openFor]
      split
      · next reachable => exact path_of_emit (.overflow rfl queued due reachable drained)
      · next lost =>
        have lost := Bool.eq_false_iff.mpr lost
        rw [eq] at expired
        refine (expired fun _ => lost).trans
          (path_failTarget (.queued request) (h := {}) rfl rfl ?_ ?_)
        · intro id eq
          cases eq
          exact .inr ⟨same, ⟨rfl, drained, full⟩, .inr ⟨(expire_eq_openOverflow due).1, lost⟩⟩
        · exact .inr lost
    · next eq =>
      rw [eq] at expired
      exact expired (by simp)

theorem path_failAll {rs : List Request} (held : h.requests = rs)
    (closed : t.pool.closed = true) :
    Path (z.scene t h)
      (z.scene (rs.foldl (fun t r => t.fail r .poolClosed) t) { h with requests := [] }) := by
  induction rs generalizing t h with
  | nil =>
    have same : { h with requests := [] } = h := by rw [← held]
    rw [same]
    exact .refl
  | cons r rest ih =>
    have still : (t.fail r .poolClosed).pool.closed = true := by
      rw [Turn.pool_fail]
      exact closed
    have grounds : z.Grounds t .poolClosed := .inl closed
    exact (path_fail held grounds).trans (ih (h := { h with requests := rest }) rfl still)

theorem path_evictAll {order : List ConnId} (free : h.task = none) (empty : h.conn = none)
    (closed : t.pool.closed = true) :
    Path (z.scene t h) (z.scene (order.foldl (Turn.discard z.world) t) h) := by
  induction order generalizing t with
  | nil => exact .refl
  | cons id rest ih =>
    have still : (t.discard z.world id).pool.closed = true := by
      rw [Turn.closed_discard]
      exact closed
    exact (path_evict free empty closed).trans (ih still)

theorem path_answerAll {ks : List Ticket} (owed : h.replies = ks) :
    Path (z.scene t h)
      (z.scene (ks.foldl (fun t k => t.answer k .done) t) { h with replies := [] }) := by
  induction ks generalizing t h with
  | nil =>
    have same : { h with replies := [] } = h := by rw [← owed]
    rw [same]
    exact .refl
  | cons k rest ih =>
    exact (path_answer owed (.inl rfl)).trans (ih (h := { h with replies := rest }) rfl)

theorem path_shutDown {c : Option Command} (closer : Option Ticket)
    (ends : c = closer.map .close) (opened : closer ≠ none → t.pool.closed = false) :
    Path (z.scene t { task := some c }) (z.scene (t.shutDown z.world) { closer }) := by
  let closing : Turn := { t with
    pool := { t.pool with closed := true, pending := { t.pool.pending with requests := [] } } }
  have begun : Path (z.scene t { task := some c })
      (z.scene closing { requests := t.pool.pending.requests, closer }) :=
    .single (.shut rfl ends opened)
  have failed := path_failAll (z := z) (t := closing)
    (h := { requests := t.pool.pending.requests, closer }) rfl rfl
  have closed :
      (t.pool.pending.requests.foldl (fun t r => t.fail r .poolClosed) closing).pool.closed =
        true := by
    rw [Turn.pool_failAll]
  exact (begun.trans failed).trans (path_evictAll rfl rfl closed)

theorem path_close {k : Ticket} :
    Path (z.scene t { task := some (some (.close k)) }) (z.scene (t.close z.world k) {}) := by
  simp only [Turn.close]
  split
  · next closed =>
    exact .head (.dismiss (c := .close k) rfl closed)
      (path_answer (h := { replies := [k] }) rfl (.inl rfl))
  · next opened =>
    exact (path_shutDown (some k) rfl fun _ => by simpa using opened).tail (.await rfl)

theorem path_perform {c : Command} (quiet : t.pool.Quiet) (same : z.memory.command = some c)
    (begun : ∀ rec, (z.scene t {}).past.getLast? = some rec → rec.effect = none) :
    Path (z.scene t { task := some (some c) }) (z.scene (t.perform z.world c) {}) := by
  cases c with
  | acquire k => exact path_acquire quiet same
  | release id k => exact path_takeBack rfl same rfl fun unlent => unlent
  | close k => exact path_close
  | stats k => exact path_of_emit (.stats rfl)
  | connected target result => exact path_connected same
  | checked id healthy reply => exact path_checked same
  | timedOut request => exact path_timedOut quiet same begun
  | closed id => exact .single (.forget rfl)
  | dropped id => exact path_takeBack rfl same rfl fun unlent => unlent

theorem path_finishClose (closed : t.pool.closed = true)
    (complete : t.pool.registry.isDrained = true ∨
      t.pool.registry.entries = [] ∧ z.memory.command = none ∧ z.site.ended = true) :
    Path (z.scene t {}) (z.scene t.finishClose {}) := by
  have ended : (z.scene t {}).site.ended = z.site.ended := z.course.ended_amid t.effects
  have reported : Path (z.scene t {})
      (z.scene { t with pool := { t.pool with closeWaiters := [] } }
        { replies := t.pool.closeWaiters }) :=
    .single (.report rfl closed (complete.imp_right fun ⟨none_left, last, stopped⟩ =>
      ⟨none_left, last, ended.trans stopped⟩))
  exact reported.trans (path_answerAll (h := { replies := t.pool.closeWaiters }) rfl)

theorem path_settleClose : Path (z.scene t {}) (z.scene t.settleClose {}) := by
  simp only [Turn.settleClose]
  split
  · next complete => exact path_finishClose complete.1 (.inl complete.2)
  · exact .refl

/-- A turn is a path that starts with its task in hand and ends with nothing. -/
theorem path_respond {c : Option Command} (quiet : z.site.pool.Quiet)
    (same : z.memory.command = c) (ending : c = none → z.site.ended = true)
    (begun : ∀ rec, z.past.getLast? = some rec → rec.effect = none) :
    Path (z.scene ⟨z.site.pool, []⟩ { task := some c })
      (z.scene (z.site.pool.respond z.world c) {}) := by
  cases c with
  | some c =>
    have begun' : ∀ rec, (z.scene ⟨z.site.pool, []⟩ {}).past.getLast? = some rec →
        rec.effect = none := by
      simpa [Setting.scene] using begun
    exact ((path_perform quiet same begun').trans path_servePending).trans path_settleClose
  | none =>
    -- The end of a pool is a close that nobody asked for.
    refine (path_shutDown none rfl (absurd rfl)).trans (path_finishClose ?_ (.inr ?_))
    · exact Turn.closed_shutDown
    · exact ⟨Turn.entries_shutDown, same, ending rfl⟩

end LoanPool
