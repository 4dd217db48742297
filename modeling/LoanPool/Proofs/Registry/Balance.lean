import LoanPool.Proofs.Keyed
import LoanPool.Proofs.Registry.Slots

/-!
# Balance

What ties the parts of a registry together: the queue of idle connections and the slots tell the
same, and the counters tell how many connections are in use or being opened. Every operation that is
called for keeps the balance, and none of them then takes from a counter that stands at zero.
-/
namespace LoanPool

def Slot.inUse (slot : Slot) : Bool :=
  slot = .onLoan ∨ slot = .checking

namespace Registry

def inUse (r : Registry) : Nat :=
  r.entries.countP (·.slot.inUse)

structure Balanced (r : Registry) : Prop where
  named : r.ids.Nodup
  queued : r.idle.Nodup
  /-- The queue lists the idle connections, and these alone. -/
  idle : ∀ id, id ∈ r.idle ↔ r.slot? id = some .idle
  units : r.acquired = r.connecting + r.inUse
  apart : ∀ id ∈ r.closing, id ∉ r.ids
  solvent : r.overdrawn = false

variable {r r' : Registry} {id i : ConnId} {serial : Serial} {slot : Slot}

theorem inUse_eq_true : slot.inUse = true ↔ slot ≠ .idle := by
  cases slot <;> simp [Slot.inUse]

/-! ### One entry among the others -/

theorem countP_relabel (named : r.ids.Nodup) {e : Entry} (found : r.find? id = some e)
    (slot : Slot) :
    (relabel r.entries id slot).countP (·.slot.inUse) + e.slot.inUse.toNat =
      r.inUse + slot.inUse.toNat := by
  have here := id_of_find? found
  subst here
  exact Keyed.countP_change named (List.mem_of_find?_eq_some found)
    (fun e => { e with slot := slot }) (·.slot.inUse)

theorem countP_filter_ne (named : r.ids.Nodup) {e : Entry} (found : r.find? id = some e) :
    (r.entries.filter (·.id ≠ id)).countP (·.slot.inUse) + e.slot.inUse.toNat = r.inUse := by
  have here := id_of_find? found
  subst here
  exact Keyed.countP_remove named (List.mem_of_find?_eq_some found) (·.slot.inUse)

theorem nodup_relabel (named : r.ids.Nodup) :
    ((relabel r.entries id slot).map (·.id)).Nodup := by
  rw [ids_relabel]
  exact named

theorem nodup_filter_ne (named : r.ids.Nodup) :
    ((r.entries.filter (·.id ≠ id)).map (·.id)).Nodup :=
  named.sublist (List.filter_sublist.map _)

/-! ### The operations -/

theorem balanced_reserve (b : r.Balanced) : r.reserve.Balanced where
  named := b.named
  queued := b.queued
  idle := b.idle
  units := by
    have units := b.units
    simp only [reserve, inUse] at units ⊢
    omega
  apart := b.apart
  solvent := b.solvent

theorem balanced_cancelReservation (b : r.Balanced) (opening : 0 < r.connecting) :
    r.cancelReservation.Balanced where
  named := b.named
  queued := b.queued
  idle := b.idle
  units := by
    have units := b.units
    simp only [cancelReservation, giveBack, land, inUse] at units ⊢
    omega
  apart := b.apart
  solvent := by
    have units := b.units
    simp only [cancelReservation, giveBack, land, b.solvent, Bool.false_or, Bool.or_eq_false_iff,
      beq_eq_false_iff_ne]
    omega

theorem balanced_register (b : r.Balanced) (opening : 0 < r.connecting) (fresh : id ∉ r.ids)
    (forgotten : id ∉ r.closing) : (r.register id serial).Balanced := by
  have absent : r.entries.any (·.id = id) = false := by
    simpa [ids, List.any_eq_false] using fresh
  have entries : (r.register id serial).entries = r.entries ++ [⟨id, serial, .onLoan⟩] := by
    simp [register, absent]
  have ids : (r.register id serial).ids = r.ids ++ [id] := by
    simp [Registry.ids, entries]
  constructor
  case named =>
    rw [ids, List.nodup_append]
    refine ⟨b.named, by simp, ?_⟩
    rintro i member j single rfl
    exact fresh (List.mem_singleton.mp single ▸ member)
  case queued => exact b.queued
  case idle =>
    intro i
    rw [slot?_register]
    split
    · next same =>
      have unlisted : i ∉ r.idle := by
        rw [b.idle, same, slot?_eq_none.mpr fresh]
        simp
      exact ⟨fun member => absurd member unlisted, fun onLoan => by cases onLoan⟩
    · exact b.idle i
  case units =>
    have units := b.units
    have counted : (r.register id serial).inUse = r.inUse + 1 := by
      simp [inUse, entries, Slot.inUse]
    rw [counted]
    simp only [register, land] at units ⊢
    omega
  case apart =>
    intro i closing
    rw [ids, List.mem_append, List.mem_singleton]
    rintro (member | rfl)
    · exact b.apart i closing member
    · exact forgotten closing
  case solvent =>
    simp only [register, land, b.solvent, Bool.false_or, beq_eq_false_iff_ne]
    omega

theorem balanced_relabel {old : Slot} (b : r.Balanced) (known : r.slot? id = some old)
    (before : old ≠ .idle) (after : slot ≠ .idle) :
    Balanced { r with entries := relabel r.entries id slot } := by
  obtain ⟨e, found, rfl⟩ := find?_of_slot? known
  have ids : (relabel r.entries id slot).map (·.id) = r.ids := ids_relabel r.entries id slot
  constructor
  case named => exact nodup_relabel b.named
  case queued => exact b.queued
  case idle =>
    intro i
    rw [slot?_relabel r.entries slot]
    split
    · next same =>
      have queued := b.idle i
      subst same
      rw [known] at queued
      simp only [show ({ r with entries := r.entries } : Registry).slot? i = some e.slot from known,
        Option.map_some]
      simpa [before, after] using queued
    · exact b.idle i
  case units =>
    have units := b.units
    have counted := countP_relabel b.named found slot
    rw [inUse_eq_true.mpr before, inUse_eq_true.mpr after] at counted
    simp only [inUse] at units counted ⊢
    omega
  case apart =>
    intro i closing
    have apart := b.apart i closing
    rwa [← ids] at apart
  case solvent => exact b.solvent

theorem balanced_beginCheck? (b : r.Balanced) (begun : r.beginCheck? id = some (serial, r')) :
    r'.Balanced := by
  have lent := (slot?_beginCheck? begun).1
  simp only [beginCheck?] at begun
  split at begun
  · split at begun
    · cases begun
      exact balanced_relabel b lent (by simp) (by simp)
    · cases begun
  · cases begun

theorem balanced_handOver (b : r.Balanced) : (r.handOver id).Balanced := by
  simp only [handOver]
  split
  · next checking =>
    have known : r.slot? id = some .checking := by simpa [isChecking] using checking
    exact balanced_relabel b known (by simp) (by simp)
  · exact b

theorem balanced_checkout? (b : r.Balanced) (taken : r.checkout? = some (id, r')) :
    r'.Balanced := by
  have slots := fun i => slot?_checkout? (i := i) taken
  simp only [checkout?] at taken
  split at taken
  · cases taken
  · next first rest queue =>
    simp only [Option.some.injEq, Prod.mk.injEq] at taken
    obtain ⟨rfl, eq⟩ := taken
    -- The queue lists idle connections alone, so the first one is known and idle.
    have head : r.slot? first = some .idle := (b.idle first).mp (by simp [queue])
    obtain ⟨e, found, idle⟩ := find?_of_slot? head
    simp only [found, Option.isSome_some, if_true] at eq
    subst eq
    have ids : (relabel r.entries first .onLoan).map (·.id) = r.ids :=
      ids_relabel r.entries first .onLoan
    have queued : first ∉ rest ∧ rest.Nodup := by
      have queued := b.queued
      rwa [queue, List.nodup_cons] at queued
    constructor
    case named => exact nodup_relabel b.named
    case queued => exact queued.2
    case idle =>
      intro i
      rw [slots]
      have listed := b.idle i
      rw [queue, List.mem_cons] at listed
      split
      · next same =>
        subst same
        simp [head, queued.1]
      · next other => simpa [other] using listed
    case units =>
      have units := b.units
      have counted := countP_relabel b.named found .onLoan
      rw [idle, show Slot.idle.inUse = false from rfl, show Slot.onLoan.inUse = true from rfl]
        at counted
      simp only [inUse, Bool.toNat_true, Bool.toNat_false] at units counted ⊢
      omega
    case apart =>
      intro i closing
      have apart := b.apart i closing
      rwa [← ids] at apart
    case solvent => exact b.solvent

theorem slot?_checkout?_self (b : r.Balanced) (taken : r.checkout? = some (id, r')) :
    r.slot? id = some .idle ∧ r'.slot? id = some .onLoan := by
  have slot := slot?_checkout? (i := id) taken
  have head : id ∈ r.idle := by
    simp only [checkout?] at taken
    split at taken
    · cases taken
    · next first rest queue =>
      simp only [Option.some.injEq, Prod.mk.injEq] at taken
      rw [queue, ← taken.1]
      exact List.mem_cons_self
  have idle := (b.idle id).mp head
  rw [if_pos rfl, idle] at slot
  exact ⟨idle, slot⟩

theorem balanced_park? {queue : List ConnId} (b : r.Balanced) (parked : r.park? id = some r')
    (placed : queue.Perm (id :: r.idle)) : Balanced { r' with idle := queue } := by
  obtain ⟨⟨old, known, used⟩, slots⟩ := slot?_park? parked
  have slots : ∀ i, ({ r' with idle := queue } : Registry).slot? i =
    if i = id then some .idle else r.slot? i := slots
  obtain ⟨e, found, rfl⟩ := find?_of_slot? known
  simp only [park?] at parked
  simp only [found, used, if_false, Option.some.injEq] at parked
  subst parked
  have ids : (relabel r.entries id .idle).map (·.id) = r.ids := ids_relabel r.entries id .idle
  have unlisted : id ∉ r.idle := by
    rw [b.idle, known]
    simpa using used
  -- Where in the queue it is put makes no difference.
  constructor
  case named => exact nodup_relabel b.named
  case queued => exact placed.nodup_iff.mpr (List.nodup_cons.mpr ⟨unlisted, b.queued⟩)
  case idle =>
    intro i
    rw [placed.mem_iff, List.mem_cons, b.idle, slots]
    by_cases same : i = id
    · simp [same]
    · simp [same]
  case units =>
    have units := b.units
    have counted := countP_relabel b.named found .idle
    rw [inUse_eq_true.mpr used, show Slot.idle.inUse = false from rfl] at counted
    simp only [inUse, giveBack, Bool.toNat_true, Bool.toNat_false] at units counted ⊢
    omega
  case apart =>
    intro i closing
    have apart := b.apart i closing
    rwa [← ids] at apart
  case solvent =>
    have units := b.units
    have counted := countP_relabel b.named found .idle
    rw [inUse_eq_true.mpr used, show Slot.idle.inUse = false from rfl] at counted
    simp only [Bool.toNat_true, Bool.toNat_false] at counted
    simp only [giveBack, b.solvent, Bool.false_or, beq_eq_false_iff_ne]
    omega

theorem balanced_checkIn (b : r.Balanced) : ((r.checkIn? id).getD r).Balanced := by
  simp only [checkIn?]
  cases parked : r.park? id with
  | none => exact b
  | some mid =>
    apply balanced_park? b parked
    rw [idle_park? parked]
    split
    · exact .refl _
    · exact List.perm_append_singleton id r.idle

theorem balanced_putBack (b : r.Balanced) : ((r.putBack? id).getD r).Balanced := by
  simp only [putBack?]
  cases parked : r.park? id with
  | none => exact b
  | some mid =>
    apply balanced_park? b parked
    rw [idle_park? parked]

theorem balanced_remove? (b : r.Balanced) (removed : r.remove? id = some (serial, r')) :
    r'.Balanced := by
  have slots := fun i => slot?_remove? (i := i) removed
  simp only [remove?] at removed
  split at removed
  · next e found =>
    simp only [Option.some.injEq, Prod.mk.injEq] at removed
    obtain ⟨-, rfl⟩ := removed
    have counted := countP_filter_ne b.named found
    have units := b.units
    have apart : ∀ i ∈ r.closing, i ∉ (r.entries.filter (·.id ≠ id)).map (·.id) := by
      intro i closing member
      exact b.apart i closing ((List.filter_sublist.map _).subset member)
    have known := slot?_of_find? found
    -- An idle connection leaves the queue as well; one in use gives its unit back.
    by_cases idle : e.slot = .idle
    · simp only [if_pos idle] at slots ⊢
      rw [idle, show Slot.idle.inUse = false from rfl] at counted
      constructor
      case named => exact nodup_filter_ne b.named
      case queued => exact b.queued.filter _
      case idle =>
        intro i
        rw [slots]
        have listed := b.idle i
        split
        · next same => simp [same]
        · next other => simpa [other] using listed
      case units =>
        simp only [inUse, Bool.toNat_false] at units counted ⊢
        omega
      case apart => exact apart
      case solvent => exact b.solvent
    · simp only [if_neg idle] at slots ⊢
      rw [inUse_eq_true.mpr idle] at counted
      constructor
      case named => exact nodup_filter_ne b.named
      case queued => exact b.queued
      case idle =>
        intro i
        rw [slots]
        split
        · next same =>
          have unlisted : i ∉ r.idle := by
            rw [b.idle, same, known]
            simpa using idle
          exact ⟨fun member => absurd member unlisted, fun gone => by cases gone⟩
        · exact b.idle i
      case units =>
        simp only [inUse, giveBack, Bool.toNat_true] at units counted ⊢
        omega
      case apart => exact apart
      case solvent =>
        simp only [Bool.toNat_true] at counted
        simp only [giveBack, b.solvent, Bool.false_or, beq_eq_false_iff_ne]
        omega
  · cases removed

theorem balanced_discard? {confirms : Serial → Bool} (b : r.Balanced)
    (removed : r.discard? confirms id = some (serial, r')) : r'.Balanced := by
  simp only [discard?, Option.map_eq_some_iff, Prod.exists, Prod.mk.injEq] at removed
  obtain ⟨_, mid, gone, -, rfl⟩ := removed
  have rest := balanced_remove? b gone
  split
  · exact rest
  · refine ⟨rest.named, rest.queued, rest.idle, rest.units, ?_, rest.solvent⟩
    intro i closing
    rcases List.mem_append.mp closing with closing | here
    · exact rest.apart i closing
    · rw [List.mem_singleton.mp here]
      exact slot?_eq_none.mp ((slot?_remove? gone).trans (if_pos rfl))

/-- Remembering less is no matter. -/
theorem balanced_cleared (b : r.Balanced) (id : ConnId) :
    Balanced { r with closing := r.closing.filter (· ≠ id) } where
  named := b.named
  queued := b.queued
  idle := b.idle
  units := b.units
  apart i closing := b.apart i (List.mem_filter.mp closing).1
  solvent := b.solvent

theorem balanced_forget (b : r.Balanced) : (r.forget id).2.Balanced := by
  have cleared := balanced_cleared b id
  simp only [forget]
  split
  · next removed => exact balanced_remove? cleared removed
  · exact cleared

/-! ### The count of all connections -/

/-- The queue and the slots tell of the same number of idle connections. -/
theorem length_idle (b : r.Balanced) :
    r.idle.length = r.entries.countP fun e => ¬e.slot.inUse := by
  -- Both lists have no repetitions, and the same members.
  have listed : r.idle.Perm ((r.entries.filter fun e => ¬e.slot.inUse).map (·.id)) := by
    refine (List.perm_ext_iff_of_nodup b.queued ?_).mpr fun id => ?_
    · exact b.named.sublist (List.filter_sublist.map _)
    · rw [b.idle, List.mem_map]
      constructor
      · intro known
        obtain ⟨e, found, idle⟩ := find?_of_slot? known
        refine ⟨e, List.mem_filter.mpr ⟨List.mem_of_find?_eq_some found, ?_⟩, id_of_find? found⟩
        simp [idle, Slot.inUse]
      · rintro ⟨e, member, rfl⟩
        obtain ⟨member, unused⟩ := List.mem_filter.mp member
        have idle : e.slot = .idle := by simpa [inUse_eq_true] using unused
        rw [slot?_of_find? (Keyed.find?_of_mem b.named member), idle]
  rw [listed.length_eq, List.length_map, List.countP_eq_length_filter]

/-- Every connection, open or being opened, is idle or in use. -/
theorem size_add_connecting (b : r.Balanced) :
    r.size + r.connecting = r.idle.length + r.acquired := by
  have units := b.units
  have split : r.size = r.inUse + r.entries.countP fun e => ¬e.slot.inUse :=
    List.length_eq_countP_add_countP _
  rw [← length_idle b] at split
  omega

/-! ### Units -/

def isUsed (r : Registry) (id : ConnId) : Bool :=
  (r.slot? id).any Slot.inUse

def unit (r : Registry) (id : ConnId) : Nat :=
  (r.isUsed id).toNat

theorem isUsed_eq_false : r.isUsed id = false ↔ ∀ slot, r.slot? id = some slot → slot = .idle := by
  cases known : r.slot? id with
  | none => simp [isUsed, known]
  | some slot => cases slot <;> simp [isUsed, known, Slot.inUse]

theorem unit_of_unknown (unknown : id ∉ r.ids) : r.unit id = 0 := by
  rw [unit, isUsed, slot?_eq_none.mpr unknown]
  rfl

theorem inUse_eq_countP (b : r.Balanced) : r.inUse = r.ids.countP r.isUsed := by
  rw [inUse, ids, List.countP_map]
  apply List.countP_congr
  intro e member
  have slot := slot?_of_find? (Keyed.find?_of_mem b.named member)
  simp [isUsed, slot]

theorem acquired_of_used (b : r.Balanced) (known : r.slot? id = some slot) (used : slot ≠ .idle) :
    0 < r.acquired := by
  have one : 0 < r.inUse := by
    rw [inUse_eq_countP b, List.countP_pos_iff]
    exact ⟨id, mem_ids_of_slot? known, by simp [isUsed, known, inUse_eq_true.mpr used]⟩
  rw [b.units]
  exact Nat.add_pos_right _ one

end Registry
end LoanPool
