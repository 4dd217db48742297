import Mathlib.Data.List.Infix
import LoanPool.Proofs.Registry.Balance
import LoanPool.Registry.Session

/-!
# Clients of a registry

A registry keeps its balance for every client that gives each connection a name of its own, and
opens it against a reservation of its own. Nothing else is asked of the client: it may name any
connection at any time, one that is idle, closing, long gone or never heard of. So each unit that a
connection takes up is given back once, and whatever is taken from the idle queue can be put back as
if it had never been taken.
-/
namespace LoanPool.Registry

namespace Op

def reserves : Op → Bool
  | .reserve => true
  | _ => false

def lands : Op → Bool
  | .cancel => true
  | .register .. => true
  | _ => false

def registers? : Op → Option ConnId
  | .register id _ => some id
  | _ => none

def subject? : Op → Option ConnId
  | .beginCheck id => some id
  | .isChecking id => some id
  | .checkIn id => some id
  | .putBack id => some id
  | .handOver id => some id
  | .get id => some id
  | .discard id => some id
  | .forget id => some id
  | .fire id => some id
  | _ => none

/-- The connection whose use is to end, if it is in use. -/
def gives? : Op → Option ConnId
  | .checkIn id => some id
  | .putBack id => some id
  | .discard id => some id
  | .forget id => some id
  | _ => none

/-- Whether a connection comes into use, given the answer: it is registered, or taken from the idle
queue. -/
def takes (op : Op) (answer : Answer) (id : ConnId) : Bool :=
  match op, answer with
  | .register i _, _ => i = id
  | .checkout, .named i => i = id
  | _, _ => false

end Op

/-- No connection is registered under a name that was used before, and no reservation is used up
that was not made before. -/
structure Lawful (ops : List Op) : Prop where
  fresh : (ops.filterMap Op.registers?).Nodup
  backed : ∀ front, front <+: ops → front.countP Op.lands ≤ front.countP Op.reserves

theorem lawful_iff {ops : List Op} :
    Lawful ops ↔ (ops.filterMap Op.registers?).Nodup ∧
      ∀ front ∈ ops.inits, front.countP Op.lands ≤ front.countP Op.reserves := by
  simp only [List.mem_inits]
  exact ⟨fun lawful => ⟨lawful.fresh, lawful.backed⟩, fun ⟨fresh, backed⟩ => ⟨fresh, backed⟩⟩

instance (ops : List Op) : Decidable (Lawful ops) :=
  decidable_of_iff _ lawful_iff.symm

namespace Session

def run (s : Session) (ops : List Op) : Session :=
  ops.foldl (fun s op => (s.step op).2) s

def taken (id : ConnId) : Session → List Op → Nat
  | _, [] => 0
  | s, op :: rest => (op.takes (s.step op).1 id).toNat + taken id (s.step op).2 rest

def refunded (id : ConnId) : Session → List Op → Nat
  | _, [] => 0
  | s, op :: rest =>
    (if op.subject? = some id then s.registry.acquired - (s.step op).2.registry.acquired else 0) +
      refunded id (s.step op).2 rest

end Session

variable {r r' : Registry} {id i : ConnId} {serial : Serial} {slot : Slot}
  {confirms : Serial → Bool}

theorem unit_of_slot? (known : r.slot? id = some slot) : r.unit id = slot.inUse.toNat := by
  rw [unit, isUsed, known, Option.any_some]

theorem unit_congr (same : r'.slot? i = r.slot? i) : r'.unit i = r.unit i := by
  rw [unit, unit, isUsed, isUsed, same]

/-! ### Operations on one connection -/

/-- An operation on one connection. It stays in balance, and the counter is lowered by what the
connection gives up. -/
structure Single (r r' : Registry) (id : ConnId) : Prop where
  balanced : r'.Balanced
  connecting : r'.connecting = r.connecting
  named : ∀ i, i ∈ r'.ids ∨ i ∈ r'.closing → i ∈ r.ids ∨ i ∈ r.closing
  others : ∀ i, i ≠ id → r'.unit i = r.unit i
  own : r.acquired - r'.acquired + r'.unit id = r.unit id

theorem single_refl (b : r.Balanced) (id : ConnId) : Single r r id where
  balanced := b
  connecting := rfl
  named _ member := member
  others _ _ := rfl
  own := by rw [Nat.sub_self, Nat.zero_add]

theorem named_of_moved (moved : Moved r r') (i : ConnId)
    (member : i ∈ r'.ids ∨ i ∈ r'.closing) : i ∈ r.ids ∨ i ∈ r.closing := by
  rwa [moved.ids, moved.closing] at member

theorem single_beginCheck? (b : r.Balanced) (begun : r.beginCheck? id = some (serial, r')) :
    Single r r' id := by
  obtain ⟨lent, slots⟩ := slot?_beginCheck? begun
  have moved := moved_beginCheck? begun
  have kept : r'.acquired = r.acquired := by
    simp only [beginCheck?] at begun
    split at begun
    · split at begun
      · cases begun
        rfl
      · cases begun
    · cases begun
  constructor
  case balanced => exact balanced_beginCheck? b begun
  case connecting => exact moved.connecting
  case named => exact named_of_moved moved
  case others => exact fun i other => unit_congr ((slots i).trans (if_neg other))
  case own =>
    rw [unit_of_slot? ((slots id).trans (if_pos rfl)), unit_of_slot? lent, kept, Nat.sub_self]
    rfl

theorem single_handOver (b : r.Balanced) (id : ConnId) : Single r (r.handOver id) id := by
  by_cases checking : r.slot? id = some .checking
  · have lent : (r.handOver id).slot? id = some .onLoan := by
      rw [slot?_handOver, if_pos ⟨rfl, checking⟩]
    constructor
    case balanced => exact balanced_handOver b
    case connecting => exact moved_handOver.connecting
    case named => exact named_of_moved moved_handOver
    case others =>
      intro i other
      exact unit_congr (slot?_handOver.trans (if_neg fun same => other same.1))
    case own =>
      rw [unit_of_slot? lent, unit_of_slot? checking, acquired_handOver, Nat.sub_self]
      rfl
  · rw [handOver_of_unchecked checking]
    exact single_refl b id

theorem single_parked {f : Registry → Registry} (b : r.Balanced)
    (balanced : (((r.park? id).map f).getD r).Balanced)
    (moved : Moved r (((r.park? id).map f).getD r))
    (kept : ∀ m, (f m).entries = m.entries ∧ (f m).acquired = m.acquired) :
    Single r (((r.park? id).map f).getD r) id := by
  cases parked : r.park? id with
  | none => exact single_refl b id
  | some mid =>
    rw [parked] at balanced moved
    obtain ⟨entries, acquired⟩ := kept mid
    obtain ⟨⟨slot, known, used⟩, slots⟩ := slot?_park? parked
    have same : ∀ i, (f mid).slot? i = mid.slot? i := by
      intro i
      rw [slot?, find?, entries]
      rfl
    constructor
    case balanced => exact balanced
    case connecting => exact moved.connecting
    case named => exact named_of_moved moved
    case others =>
      exact fun i other => unit_congr ((same i).trans ((slots i).trans (if_neg other)))
    case own =>
      have idle : (f mid).slot? id = some .idle := (same id).trans ((slots id).trans (if_pos rfl))
      have positive := acquired_of_used b known used
      change r.acquired - (f mid).acquired + (f mid).unit id = r.unit id
      rw [unit_of_slot? idle, unit_of_slot? known, acquired, acquired_park? parked,
        inUse_eq_true.mpr used, show Slot.idle.inUse = false from rfl, Bool.toNat_true,
        Bool.toNat_false]
      omega

theorem single_checkIn (b : r.Balanced) (id : ConnId) : Single r ((r.checkIn? id).getD r) id :=
  single_parked b (balanced_checkIn b) moved_checkIn? fun _ => ⟨rfl, rfl⟩

theorem single_putBack (b : r.Balanced) (id : ConnId) : Single r ((r.putBack? id).getD r) id :=
  single_parked b (balanced_putBack b) moved_putBack? fun _ => ⟨rfl, rfl⟩

/-- A connection that is registered no more has given its unit up, if it had one. -/
theorem own_remove? (b : r.Balanced) (removed : r.remove? id = some (serial, r')) :
    r.acquired - r'.acquired = r.unit id := by
  simp only [remove?] at removed
  split at removed
  · next e found =>
    have known := slot?_of_find? found
    simp only [Option.some.injEq, Prod.mk.injEq] at removed
    obtain ⟨-, rfl⟩ := removed
    rw [unit_of_slot? known]
    by_cases idle : e.slot = .idle
    · rw [if_pos idle, idle, Nat.sub_self]
      rfl
    · have positive := acquired_of_used b known idle
      rw [if_neg idle, inUse_eq_true.mpr idle, Bool.toNat_true]
      simp only [giveBack]
      omega
  · cases removed

theorem single_of_dropped (balanced : r'.Balanced) (dropped : Dropped r r' id)
    (slots : ∀ i, r'.slot? i = if i = id then none else r.slot? i)
    (own : r.acquired - r'.acquired = r.unit id) : Single r r' id where
  balanced := balanced
  connecting := dropped.connecting
  named i member := by
    rcases member with member | member
    · exact .inl (dropped.ids.subset member)
    · rcases dropped.closing i member with closing | ⟨rfl, known⟩
      · exact .inr closing
      · exact .inl known
  others i other := unit_congr ((slots i).trans (if_neg other))
  own := by
    have gone : id ∉ r'.ids := slot?_eq_none.mp ((slots id).trans (if_pos rfl))
    rw [own, unit_of_unknown gone, Nat.add_zero]

theorem single_discard? (b : r.Balanced)
    (removed : r.discard? confirms id = some (serial, r')) : Single r r' id := by
  refine single_of_dropped (balanced_discard? b removed) (dropped_discard? removed)
    (fun i => slot?_discard? removed) ?_
  simp only [discard?, Option.map_eq_some_iff, Prod.exists, Prod.mk.injEq] at removed
  obtain ⟨serial', mid, gone, -, rfl⟩ := removed
  rw [← own_remove? b gone]
  split <;> rfl

theorem single_forget (b : r.Balanced) (id : ConnId) : Single r (r.forget id).2 id := by
  refine single_of_dropped (balanced_forget b) dropped_forget (fun i => slot?_forget) ?_
  simp only [forget]
  split
  · next gone =>
    have own := own_remove? (balanced_cleared b id) gone
    exact own
  · next kept =>
    have unknown := remove?_eq_none.mp kept
    rw [unit_of_unknown (r := r) unknown]
    exact Nat.sub_self _

/-! ### One operation of a session -/

inductive Session.Does (s : Session) : Op → Answer → Registry → Prop
  | reserve : Does s .reserve .nothing s.registry.reserve
  | cancel : Does s .cancel .nothing s.registry.cancelReservation
  | register {id : ConnId} {lagging : Bool} :
      Does s (.register id lagging) .nothing (s.registry.register id ⟨s.made.length⟩)
  | checkout {id : ConnId} {r : Registry} (taken : s.registry.checkout? = some (id, r)) :
      Does s .checkout (.named id) r
  | none (empty : s.registry.checkout? = none) : Does s .checkout .nothing s.registry
  | single {op : Op} {answer : Answer} {id : ConnId} {r : Registry} (subject : op.subject? = some id)
      (single : Single s.registry r id) : Does s op answer r

variable {s s' : Session} {op : Op} {ops done : List Op} {answer : Answer} {lifo : Bool}

theorem registry_update (s : Session) (r : Option Registry) :
    (s.update r).2.registry = r.getD s.registry := by
  cases r <;> rfl

theorem does_step (b : s.registry.Balanced) (op : Op) :
    s.Does op (s.step op).1 (s.step op).2.registry := by
  cases op with
  | reserve => exact .reserve
  | cancel => exact .cancel
  | register id lagging => exact .register
  | checkout =>
    simp only [Session.step]
    split
    · next taken => exact .checkout taken
    · next empty => exact .none empty
  | beginCheck id =>
    refine .single rfl ?_
    rw [Session.step, registry_update]
    cases begun : s.registry.beginCheck? id with
    | none => exact single_refl b id
    | some found => exact single_beginCheck? b begun
  | isChecking id => exact .single rfl (single_refl b id)
  | checkIn id =>
    refine .single rfl ?_
    rw [Session.step, registry_update]
    exact single_checkIn b id
  | putBack id =>
    refine .single rfl ?_
    rw [Session.step, registry_update]
    exact single_putBack b id
  | handOver id => exact .single rfl (single_handOver b id)
  | get id => exact .single rfl (single_refl b id)
  | discard id =>
    refine .single rfl ?_
    simp only [Session.step]
    split
    · next removed => exact single_discard? b removed
    · exact single_refl b id
  | forget id => exact .single rfl (single_forget b id)
  | fire id =>
    refine .single rfl ?_
    simp only [Session.step]
    split <;> exact single_refl b id

/-! ### Any number of operations -/

structure Kept (done : List Op) (r : Registry) : Prop where
  balanced : r.Balanced
  reserved : r.connecting + done.countP Op.lands = done.countP Op.reserves
  named : ∀ i, i ∈ r.ids ∨ i ∈ r.closing → i ∈ done.filterMap Op.registers?

theorem kept_start (lifo : Bool) : Kept [] (Session.start lifo).registry where
  balanced := ⟨List.nodup_nil, List.nodup_nil, fun _ => ⟨nofun, nofun⟩, rfl, nofun, rfl⟩
  reserved := rfl
  named _ member := by rcases member with member | member <;> cases member

theorem plain_of_subject? (subject : op.subject? = some id) :
    op.reserves = false ∧ op.lands = false ∧ ∀ answer i, op.takes answer i = false := by
  cases op with
  | reserve => cases subject
  | cancel => cases subject
  | register => cases subject
  | checkout => cases subject
  | _ => exact ⟨rfl, rfl, fun _ _ => rfl⟩

/-- Whoever uses a reservation up finds one. -/
theorem opening_of_lawful (kept : Kept done r) (lawful : Lawful (done ++ [op]))
    (lands : op.lands = true) : 0 < r.connecting := by
  have backed := lawful.backed (done ++ [op]) List.prefix_rfl
  have plain : op.reserves = false := by cases op <;> first | rfl | cases lands
  rw [List.countP_append, List.countP_append, List.countP_singleton, List.countP_singleton,
    if_pos lands, plain, ← kept.reserved] at backed
  simp only [Bool.false_eq_true, if_false] at backed
  omega

theorem unregistered_of_lawful {lagging : Bool} (kept : Kept done r)
    (lawful : Lawful (done ++ [.register id lagging])) : id ∉ r.ids ∧ id ∉ r.closing := by
  have fresh := lawful.fresh
  rw [List.filterMap_append, List.nodup_append] at fresh
  have unused : id ∉ done.filterMap Op.registers? := by
    intro used
    exact fresh.2.2 id used id (List.mem_singleton_self _) rfl
  exact ⟨fun member => unused (kept.named id (.inl member)),
    fun member => unused (kept.named id (.inr member))⟩

theorem balanced_does (kept : Kept done s.registry) (lawful : Lawful (done ++ [op]))
    (does : s.Does op answer r) : r.Balanced := by
  have b := kept.balanced
  cases does with
  | reserve => exact balanced_reserve b
  | cancel => exact balanced_cancelReservation b (opening_of_lawful kept lawful rfl)
  | register =>
    obtain ⟨fresh, forgotten⟩ := unregistered_of_lawful kept lawful
    exact balanced_register b (opening_of_lawful kept lawful rfl) fresh forgotten
  | checkout taken => exact balanced_checkout? b taken
  | none empty => exact b
  | single subject single => exact single.balanced

theorem reserved_does (kept : Kept done s.registry) (lawful : Lawful (done ++ [op]))
    (does : s.Does op answer r) :
    r.connecting + (done ++ [op]).countP Op.lands = (done ++ [op]).countP Op.reserves := by
  have reserved := kept.reserved
  have opening := opening_of_lawful kept lawful
  rw [List.countP_append, List.countP_append, List.countP_singleton, List.countP_singleton,
    ← reserved]
  cases does with
  | reserve =>
    simp only [Op.lands, Op.reserves, Registry.reserve, Bool.false_eq_true, if_false, if_true]
    omega
  | cancel =>
    have opening := opening rfl
    simp only [Op.lands, Op.reserves, cancelReservation, giveBack, land, Bool.false_eq_true,
      if_false, if_true]
    omega
  | register =>
    have opening := opening rfl
    simp only [Op.lands, Op.reserves, Registry.register, land, Bool.false_eq_true, if_false,
      if_true]
    omega
  | checkout taken => rw [(moved_checkout? taken).connecting]; rfl
  | none empty => rfl
  | single subject single =>
    obtain ⟨reserves, lands, -⟩ := plain_of_subject? subject
    rw [single.connecting, reserves, lands]
    rfl

theorem named_does (kept : Kept done s.registry) (does : s.Does op answer r) (i : ConnId)
    (member : i ∈ r.ids ∨ i ∈ r.closing) : i ∈ (done ++ [op]).filterMap Op.registers? := by
  have known : ∀ i, i ∈ s.registry.ids ∨ i ∈ s.registry.closing →
      i ∈ (done ++ [op]).filterMap Op.registers? := by
    intro i member
    rw [List.filterMap_append]
    exact List.mem_append_left _ (kept.named i member)
  cases does with
  | reserve => exact known i member
  | cancel => exact known i member
  | register =>
    rcases member with member | closing
    · rcases mem_ids_register member with rfl | member
      · simp [Op.registers?]
      · exact known i (.inl member)
    · exact known i (.inr closing)
  | checkout taken => exact known i (named_of_moved (moved_checkout? taken) i member)
  | none empty => exact known i member
  | single subject single => exact known i (single.named i member)

theorem kept_does (kept : Kept done s.registry) (lawful : Lawful (done ++ [op]))
    (does : s.Does op answer r) : Kept (done ++ [op]) r :=
  ⟨balanced_does kept lawful does, reserved_does kept lawful does, named_does kept does⟩

/-- A connection that comes into use takes a unit, and it has given up whatever the counter is
lowered by. -/
theorem unit_does (kept : Kept done s.registry) (lawful : Lawful (done ++ [op]))
    (does : s.Does op answer r) (id : ConnId) :
    s.registry.unit id + (op.takes answer id).toNat =
      (if op.subject? = some id then s.registry.acquired - r.acquired else 0) + r.unit id := by
  cases does with
  | reserve =>
    rw [if_neg nofun, Nat.zero_add]
    rfl
  | cancel =>
    rw [if_neg nofun, Nat.zero_add]
    rfl
  | @register i lagging =>
    obtain ⟨fresh, -⟩ := unregistered_of_lawful kept lawful
    have slots : (s.registry.register i ⟨s.made.length⟩).slot? id =
        if id = i then some .onLoan else s.registry.slot? id := slot?_register
    rw [if_neg nofun, Nat.zero_add, Op.takes]
    by_cases same : id = i
    · subst same
      rw [unit_of_slot? (slots.trans (if_pos rfl)), unit_of_unknown fresh, decide_eq_true rfl]
      rfl
    · rw [unit_congr (slots.trans (if_neg same)), decide_eq_false (Ne.symm same)]
      rfl
  | @checkout i r taken =>
    rw [if_neg nofun, Nat.zero_add, Op.takes]
    by_cases same : id = i
    · subst same
      obtain ⟨idle, lent⟩ := slot?_checkout?_self kept.balanced taken
      rw [unit_of_slot? idle, unit_of_slot? lent, decide_eq_true rfl]
      rfl
    · have slot := (slot?_checkout? (i := id) taken).trans (if_neg same)
      rw [unit_congr slot, decide_eq_false (Ne.symm same)]
      rfl
  | none empty =>
    rw [if_neg nofun, Nat.zero_add]
    rfl
  | @single op answer i r subject single =>
    obtain ⟨-, -, plain⟩ := plain_of_subject? subject
    rw [plain, subject]
    by_cases same : i = id
    · subst same
      rw [if_pos rfl, single.own]
      rfl
    · rw [if_neg (by simpa using same), single.others id (Ne.symm same)]
      exact Nat.add_comm _ _

/-- A connection that is put away, at whichever end of the queue, has no unit left; nor has one that
there was no need to put away. -/
theorem unit_parked {f : Registry → Registry} (kept : ∀ m, (f m).entries = m.entries) :
    (((r.park? id).map f).getD r).unit id = 0 := by
  cases parked : r.park? id with
  | none =>
    have unused : r.isUsed id = false := by
      rw [isUsed_eq_false]
      intro slot known
      by_contra used
      obtain ⟨mid, put⟩ := park?_of_used known used
      cases parked.symm.trans put
    exact congrArg Bool.toNat unused
  | some mid =>
    have idle : (f mid).slot? id = some .idle := by
      rw [slot?, find?, kept]
      exact ((slot?_park? parked).2 id).trans (if_pos rfl)
    exact unit_of_slot? idle

/-- Whether a connection was in use or not, once its use is ended it has no unit left. -/
theorem unit_gives (gives : op.gives? = some id) : (s.step op).2.registry.unit id = 0 := by
  cases op with
  | checkIn i =>
    cases gives
    rw [Session.step, registry_update]
    exact unit_parked fun _ => rfl
  | putBack i =>
    cases gives
    rw [Session.step, registry_update]
    exact unit_parked fun _ => rfl
  | discard i =>
    cases gives
    simp only [Session.step]
    split
    · next removed =>
      exact unit_of_unknown (slot?_eq_none.mp ((slot?_discard? removed).trans (if_pos rfl)))
    · next kept => exact unit_of_unknown (find?_eq_none.mp (find?_of_kept kept))
  | forget i =>
    cases gives
    exact unit_of_unknown (slot?_eq_none.mp (slot?_forget.trans (if_pos rfl)))
  | _ => cases gives

theorem lawful_of_append {front back : List Op} (lawful : Lawful (front ++ back)) :
    Lawful front where
  fresh := by
    have fresh := lawful.fresh
    rw [List.filterMap_append] at fresh
    exact fresh.sublist (List.sublist_append_left _ _)
  backed first first_front := lawful.backed first (first_front.trans (List.prefix_append _ _))

theorem kept_run (kept : Kept done s.registry) (lawful : Lawful (done ++ ops)) :
    Kept (done ++ ops) (s.run ops).registry := by
  induction ops generalizing done s with
  | nil =>
    rw [List.append_nil]
    exact kept
  | cons op rest ih =>
    rw [List.append_cons] at lawful ⊢
    exact ih (kept_does kept (lawful_of_append lawful) (does_step kept.balanced op)) lawful

theorem unit_run (kept : Kept done s.registry) (lawful : Lawful (done ++ ops)) (id : ConnId) :
    s.registry.unit id + Session.taken id s ops =
      Session.refunded id s ops + (s.run ops).registry.unit id := by
  induction ops generalizing done s with
  | nil => exact Nat.add_comm _ _
  | cons op rest ih =>
    rw [List.append_cons] at lawful
    have next := lawful_of_append lawful
    have does := does_step kept.balanced op
    have here := unit_does kept next does id
    have later := ih (kept_does kept next does) lawful
    rw [Session.taken, Session.refunded, show s.run (op :: rest) = (s.step op).2.run rest from rfl]
    omega

/-! ### Putting a connection back -/

theorem relabel_relabel {entries : List Entry} {old : Slot}
    (labelled : ∀ e ∈ entries, e.id = id → e.slot = old) :
    relabel (relabel entries id slot) id old = entries := by
  rw [relabel, relabel, List.map_map]
  refine (List.map_congr_left fun e member => ?_).trans (List.map_id _)
  by_cases same : e.id = id
  · simp only [Function.comp, if_pos same, id_eq, ← labelled e member same]
  · simp only [Function.comp, if_neg same, id_eq]

/-- Whatever is taken from the idle queue can be put back, and then nothing has happened. -/
theorem putBack?_of_checkout? (b : r.Balanced) (taken : r.checkout? = some (id, r')) :
    r'.putBack? id = some r := by
  obtain ⟨idle, lent⟩ := slot?_checkout?_self b taken
  have labelled : ∀ e ∈ r.entries, e.id = id → e.slot = .idle := by
    rintro e member rfl
    have slot := slot?_of_find? (Keyed.find?_of_mem b.named member)
    exact Option.some.inj (slot.symm.trans idle)
  obtain ⟨e, found, onLoan⟩ := find?_of_slot? lent
  have used : e.slot ≠ .idle := by
    rw [onLoan]
    nofun
  have solvent := b.solvent
  simp only [checkout?] at taken
  split at taken
  · cases taken
  · next first rest queue =>
    simp only [Option.some.injEq, Prod.mk.injEq] at taken
    obtain ⟨rfl, rfl⟩ := taken
    obtain ⟨e', known, -⟩ := find?_of_slot? idle
    rw [known, Option.isSome_some, if_pos rfl] at found ⊢
    rw [putBack?, park?, found]
    simp only [if_neg used, Option.map_some, giveBack, relabel_relabel labelled, ← queue,
      Nat.add_sub_cancel, solvent, Bool.false_or]
    rw [show (r.acquired + 1 == 0) = false from rfl, ← solvent]

/-- Every registry stays in balance, whoever drives it. Whatever a connection takes up it gives back
once, or has yet to give back, and it has given it back as soon as its use is ended in any way; and
what is taken from the idle queue can be put back as if it had never been taken. -/
theorem balanced_for_every_client (lifo : Bool) (ops : List Op) (lawful : Lawful ops) :
    ((Session.start lifo).run ops).registry.Balanced ∧
      (∀ id, Session.taken id (Session.start lifo) ops =
        Session.refunded id (Session.start lifo) ops +
          ((Session.start lifo).run ops).registry.unit id) ∧
      (∀ op id, op.gives? = some id →
        (((Session.start lifo).run ops).step op).2.registry.unit id = 0) ∧
      ∀ id s, ((Session.start lifo).run ops).step .checkout = (.named id, s) →
        s.step (.putBack id) = (.flag true, (Session.start lifo).run ops) := by
  have start := kept_start lifo
  have kept : Kept ops ((Session.start lifo).run ops).registry := kept_run start lawful
  refine ⟨kept.balanced, fun id => ?_, fun op id => unit_gives, fun id s stepped => ?_⟩
  · have units := unit_run start lawful id
    have unknown : (Session.start lifo).registry.unit id = 0 := unit_of_unknown List.not_mem_nil
    rwa [unknown, Nat.zero_add] at units
  · simp only [Session.step] at stepped
    split at stepped
    · next taken =>
      cases stepped
      rw [Session.step, putBack?_of_checkout? kept.balanced taken]
      rfl
    · cases stepped

/-- One connection is checked in while on loan, taken and put back, and closed twice over; another
is forgotten before it is closed, and put back when it is gone. A third could not be opened, and the
last one is idle in the end. -/
def tangled : List Op :=
  [.reserve, .reserve, .register ⟨1⟩ true, .checkIn ⟨1⟩, .reserve, .register ⟨2⟩ false,
    .checkout, .putBack ⟨1⟩, .checkIn ⟨1⟩, .discard ⟨1⟩, .discard ⟨1⟩, .forget ⟨2⟩, .discard ⟨2⟩,
    .putBack ⟨2⟩, .cancel, .reserve, .register ⟨3⟩ false, .beginCheck ⟨3⟩, .checkIn ⟨3⟩]

theorem balanced_of_tangled :
    Lawful tangled ∧
      ((Session.start false).run tangled).registry.Balanced ∧
      Session.taken ⟨1⟩ (Session.start false) tangled = 2 ∧
      Session.refunded ⟨1⟩ (Session.start false) tangled = 2 ∧
      (((Session.start false).run tangled).step (.forget ⟨3⟩)).2.registry.unit ⟨3⟩ = 0 ∧
      ∃ s, ((Session.start false).run tangled).step .checkout = (.named ⟨3⟩, s) ∧
        s.step (.putBack ⟨3⟩) = (.flag true, (Session.start false).run tangled) := by
  have lawful : Lawful tangled := by decide
  obtain ⟨balanced, units, ended, back⟩ := balanced_for_every_client false tangled lawful
  have taken : Session.taken ⟨1⟩ (Session.start false) tangled = 2 := by decide
  have unit : ((Session.start false).run tangled).registry.unit ⟨1⟩ = 0 := by decide
  have refunded := units ⟨1⟩
  rw [taken, unit, Nat.add_zero] at refunded
  have next : ((Session.start false).run tangled).step .checkout =
      (.named ⟨3⟩, (((Session.start false).run tangled).step .checkout).2) := by rfl
  have forgotten := ended (.forget ⟨3⟩) ⟨3⟩ rfl
  exact ⟨lawful, balanced, taken, refunded.symm, forgotten, _, next, back ⟨3⟩ _ next⟩

end LoanPool.Registry
