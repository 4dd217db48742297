import LoanPool.Proofs.Keyed
import LoanPool.Registry

/-!
# Slots

What each operation of a registry does to the slots of its connections. An operation on one
connection leaves the slots of all others alone.
-/
namespace LoanPool

def Entry.name (e : Entry) : ConnId × Serial :=
  (e.id, e.serial)

namespace Registry
variable {r r' : Registry} {id i : ConnId} {serial : Serial} {slot : Slot}

def names (r : Registry) : List (ConnId × Serial) :=
  r.entries.map Entry.name

theorem ids_eq_names (r : Registry) : r.ids = r.names.map (·.1) := by
  rw [names, List.map_map]
  rfl

theorem find?_relabel (entries : List Entry) (id i : ConnId) (slot : Slot) :
    (relabel entries id slot).find? (·.id = i) =
      (entries.find? (·.id = i)).map fun e => if e.id = id then { e with slot := slot } else e := by
  simp only [relabel]
  rw [List.find?_map]
  have sameName : (fun e : Entry => decide (e.id = i)) ∘
      (fun e => if e.id = id then { e with slot := slot } else e) = fun e => decide (e.id = i) := by
    funext e
    simp only [Function.comp]
    split <;> rfl
  rw [sameName]

theorem find?_filter_ne (entries : List Entry) (id i : ConnId) :
    (entries.filter (·.id ≠ id)).find? (·.id = i) =
      if i = id then none else entries.find? (·.id = i) := by
  rw [List.find?_filter]
  split
  · next same =>
    subst same
    simp
  · next other =>
    congr 1
    funext e
    by_cases hit : e.id = i
    · simp [hit, other]
    · simp [hit]

theorem id_of_find? {e : Entry} (found : r.find? id = some e) : e.id = id := by
  simpa using List.find?_some found

theorem find?_eq_none : r.find? id = none ↔ id ∉ r.ids := by
  simp [find?, ids, List.find?_eq_none]

theorem slot?_eq_none : r.slot? id = none ↔ id ∉ r.ids := by
  rw [slot?, Option.map_eq_none_iff, find?_eq_none]

theorem slot?_of_find? {e : Entry} (found : r.find? id = some e) : r.slot? id = some e.slot := by
  rw [slot?, found]
  rfl

theorem find?_of_slot? {slot : Slot} (known : r.slot? id = some slot) :
    ∃ e, r.find? id = some e ∧ e.slot = slot := by
  simpa [slot?, Option.map_eq_some_iff] using known

theorem mem_ids_of_slot? {slot : Slot} (known : r.slot? id = some slot) : id ∈ r.ids := by
  by_cases member : id ∈ r.ids
  · exact member
  · rw [slot?_eq_none.mpr member] at known
    cases known

theorem slot?_of_mem_ids (member : id ∈ r.ids) : ∃ slot, r.slot? id = some slot := by
  cases known : r.slot? id with
  | some slot => exact ⟨slot, rfl⟩
  | none => exact absurd member (slot?_eq_none.mp known)

theorem names_relabel (entries : List Entry) (id : ConnId) (slot : Slot) :
    (relabel entries id slot).map Entry.name = entries.map Entry.name := by
  simp only [relabel]
  rw [List.map_map]
  congr 1
  funext e
  simp only [Function.comp]
  split <;> rfl

theorem ids_relabel (entries : List Entry) (id : ConnId) (slot : Slot) :
    (relabel entries id slot).map (·.id) = entries.map (·.id) := by
  have ids := congrArg (List.map (·.1)) (names_relabel entries id slot)
  rw [List.map_map, List.map_map] at ids
  exact ids

theorem slot?_relabel (entries : List Entry) (slot : Slot) :
    { r with entries := relabel entries id slot }.slot? i =
      if i = id then ({ r with entries := entries }.slot? i).map fun _ => slot
      else { r with entries := entries }.slot? i := by
  simp only [slot?, find?, find?_relabel, Option.map_map]
  cases found : entries.find? (·.id = i) with
  | none => simp
  | some e =>
    have named : e.id = i := by simpa using List.find?_some found
    by_cases same : i = id
    · simp [named, same]
    · simp [named, same]

theorem serial?_relabel (entries : List Entry) (slot : Slot) :
    { r with entries := relabel entries id slot }.serial? i =
      { r with entries := entries }.serial? i := by
  simp only [serial?, find?, find?_relabel, Option.map_map]
  congr 1
  funext e
  simp only [Function.comp]
  split <;> rfl

theorem slot?_filter_ne (entries : List Entry) :
    { r with entries := entries.filter (·.id ≠ id) }.slot? i =
      if i = id then none else { r with entries := entries }.slot? i := by
  simp only [slot?, find?, find?_filter_ne]
  split <;> rfl

/-! ### The operations -/

theorem find?_register :
    (r.register id serial).find? i =
      if i = id then some ⟨id, serial, .onLoan⟩ else r.find? i := by
  unfold register find?
  dsimp only
  split
  · next present =>
    have sameName : (fun e : Entry => decide (e.id = i)) ∘
        (fun e => if e.id = id then (⟨id, serial, .onLoan⟩ : Entry) else e) =
          fun e => decide (e.id = i) := by
      funext e
      simp only [Function.comp]
      split
      · next named => rw [named]
      · rfl
    rw [List.find?_map, sameName]
    by_cases same : i = id
    · subst same
      obtain ⟨e, member, named⟩ := List.any_eq_true.mp present
      have found : (r.entries.find? (·.id = i)).isSome :=
        List.find?_isSome.mpr ⟨e, member, named⟩
      obtain ⟨first, found⟩ := Option.isSome_iff_exists.mp found
      have named : first.id = i := by simpa using List.find?_some found
      simp [found, named]
    · rw [if_neg same]
      cases found : r.entries.find? (·.id = i) with
      | none => rfl
      | some first =>
        have named : first.id = i := by simpa using List.find?_some found
        simp [named, same]
  · next absent =>
    rw [List.find?_append]
    by_cases same : i = id
    · subst same
      have unknown : r.entries.find? (·.id = i) = none := by
        simpa [List.find?_eq_none] using absent
      simp [unknown]
    · have skip : List.find? (fun e : Entry => decide (e.id = i)) [⟨id, serial, .onLoan⟩] =
          none := by
        simp [Ne.symm same]
      rw [skip, Option.or_none, if_neg same]

theorem slot?_register :
    (r.register id serial).slot? i = if i = id then some .onLoan else r.slot? i := by
  rw [slot?, find?_register]
  split <;> rfl

theorem mem_ids_register (member : i ∈ (r.register id serial).ids) : i = id ∨ i ∈ r.ids := by
  by_cases same : i = id
  · exact .inl same
  · obtain ⟨slot, known⟩ := slot?_of_mem_ids member
    rw [slot?_register, if_neg same] at known
    exact .inr (mem_ids_of_slot? known)

theorem serial?_register_self : (r.register id serial).serial? id = some serial := by
  rw [serial?, find?_register, if_pos rfl]
  rfl

theorem slot?_checkout? (taken : r.checkout? = some (id, r')) :
    r'.slot? i = if i = id then (r.slot? i).map fun _ => .onLoan else r.slot? i := by
  simp only [checkout?] at taken
  split at taken
  · cases taken
  · simp only [Option.some.injEq, Prod.mk.injEq] at taken
    obtain ⟨rfl, rfl⟩ := taken
    split
    · exact slot?_relabel r.entries .onLoan
    · next first rest _ unknown =>
      have absent : r.slot? first = none := by
        rw [slot?, Option.map_eq_none_iff]
        simpa using unknown
      by_cases same : i = first
      · subst same
        simp only [if_true, absent, Option.map_none]
        exact absent
      · simp only [same, if_false]
        rfl

theorem slot?_beginCheck? (taken : r.beginCheck? id = some (serial, r')) :
    r.slot? id = some .onLoan ∧
      ∀ i, r'.slot? i = if i = id then some .checking else r.slot? i := by
  simp only [beginCheck?] at taken
  split at taken
  · next e found =>
    split at taken
    · next lent =>
      simp only [Option.some.injEq, Prod.mk.injEq] at taken
      obtain ⟨-, rfl⟩ := taken
      have known : r.slot? id = some .onLoan := by rw [slot?_of_find? found, lent]
      refine ⟨known, fun i => ?_⟩
      rw [slot?_relabel r.entries .checking]
      by_cases same : i = id
      · subst same
        simp only [if_true]
        exact congrArg (Option.map fun _ => Slot.checking) known
      · simp only [same, if_false]
    · cases taken
  · cases taken

theorem serial?_beginCheck? (taken : r.beginCheck? id = some (serial, r')) :
    r'.serial? id = some serial := by
  simp only [beginCheck?] at taken
  split at taken
  · next e found =>
    split at taken
    · simp only [Option.some.injEq, Prod.mk.injEq] at taken
      obtain ⟨rfl, rfl⟩ := taken
      rw [serial?_relabel r.entries .checking]
      exact congrArg (Option.map (·.serial)) found
    · cases taken
  · cases taken

theorem slot?_park? (parked : r.park? id = some r') :
    (∃ slot, r.slot? id = some slot ∧ slot ≠ .idle) ∧
      ∀ i, r'.slot? i = if i = id then some .idle else r.slot? i := by
  simp only [park?] at parked
  split at parked
  · next e found =>
    split at parked
    · cases parked
    · next used =>
      simp only [Option.some.injEq] at parked
      subst parked
      have known := slot?_of_find? found
      refine ⟨⟨e.slot, known, used⟩, fun i => ?_⟩
      rw [slot?_relabel (r := r.giveBack) r.entries .idle]
      by_cases same : i = id
      · subst same
        simp only [if_true]
        exact congrArg (Option.map fun _ => Slot.idle) known
      · simp only [same, if_false]
        rfl
  · cases parked

theorem idle_park? (parked : r.park? id = some r') : r'.idle = r.idle := by
  simp only [park?] at parked
  split at parked
  · split at parked
    · cases parked
    · cases parked
      rfl
  · cases parked

theorem acquired_park? (parked : r.park? id = some r') : r'.acquired = r.acquired - 1 := by
  simp only [park?] at parked
  split at parked
  · split at parked
    · cases parked
    · cases parked
      rfl
  · cases parked

theorem slot?_handOver :
    (r.handOver id).slot? i =
      if i = id ∧ r.slot? id = some .checking then some .onLoan else r.slot? i := by
  unfold handOver isChecking
  by_cases checking : r.slot? id = some .checking
  · simp only [checking, decide_true, if_true, and_true]
    rw [slot?_relabel r.entries .onLoan]
    by_cases same : i = id
    · subst same
      simp only [if_true]
      exact congrArg (Option.map fun _ => Slot.onLoan) checking
    · simp only [same, if_false]
  · simp [checking]

theorem serial?_handOver : (r.handOver id).serial? i = r.serial? i := by
  simp only [handOver]
  split
  · exact serial?_relabel r.entries .onLoan
  · rfl

theorem idle_handOver (r : Registry) (id : ConnId) : (r.handOver id).idle = r.idle := by
  unfold handOver
  split <;> rfl

theorem acquired_handOver (r : Registry) (id : ConnId) :
    (r.handOver id).acquired = r.acquired := by
  unfold handOver
  split <;> rfl

theorem handOver_of_unchecked (unchecked : r.slot? id ≠ some .checking) : r.handOver id = r := by
  simp [handOver, isChecking, unchecked]

theorem handOver_handOver : (r.handOver id).handOver id = r.handOver id := by
  apply handOver_of_unchecked
  rw [slot?_handOver]
  split
  · simp
  · next other => simpa using other

theorem remove?_eq_none : r.remove? id = none ↔ id ∉ r.ids := by
  rw [← find?_eq_none, remove?]
  split
  · next found => simp [found]
  · next unknown => simp [unknown]

theorem serial?_of_remove? (removed : r.remove? id = some (serial, r')) :
    r.serial? id = some serial := by
  simp only [remove?] at removed
  split at removed
  · next e found =>
    cases removed
    rw [serial?, found, Option.map_some]
  · cases removed

theorem slot?_remove? (removed : r.remove? id = some (serial, r')) :
    r'.slot? i = if i = id then none else r.slot? i := by
  simp only [remove?] at removed
  split at removed
  · next e found =>
    simp only [Option.some.injEq, Prod.mk.injEq] at removed
    obtain ⟨-, rfl⟩ := removed
    split
    · exact slot?_filter_ne (r := { r with idle := _ }) r.entries
    · exact slot?_filter_ne (r := r.giveBack) r.entries
  · cases removed

theorem slot?_discard? {confirms : Serial → Bool}
    (removed : r.discard? confirms id = some (serial, r')) :
    r'.slot? i = if i = id then none else r.slot? i := by
  simp only [discard?, Option.map_eq_some_iff, Prod.exists, Prod.mk.injEq] at removed
  obtain ⟨_, mid, gone, -, rfl⟩ := removed
  rw [← slot?_remove? gone]
  split <;> rfl

theorem entries_remove? (removed : r.remove? id = some (serial, r')) :
    r'.entries = r.entries.filter (·.id ≠ id) := by
  simp only [remove?] at removed
  split at removed
  · cases removed
    split <;> rfl
  · cases removed

theorem entries_discard? {confirms : Serial → Bool}
    (removed : r.discard? confirms id = some (serial, r')) :
    r'.entries = r.entries.filter (·.id ≠ id) := by
  simp only [discard?, Option.map_eq_some_iff, Prod.exists, Prod.mk.injEq] at removed
  obtain ⟨serial', mid, gone, -, rfl⟩ := removed
  rw [← entries_remove? gone]
  split <;> rfl

theorem find?_of_kept {confirms : Serial → Bool} (kept : r.discard? confirms id = none) :
    r.find? id = none := by
  exact find?_eq_none.mpr (remove?_eq_none.mp (Option.map_eq_none_iff.mp kept))

theorem slot?_forget : (r.forget id).2.slot? i = if i = id then none else r.slot? i := by
  simp only [forget]
  split
  · next gone =>
    exact slot?_remove? (r := { r with closing := r.closing.filter (· ≠ id) }) gone
  · next kept =>
    have unknown := remove?_eq_none.mp kept
    have absent : r.slot? id = none := slot?_eq_none.mpr unknown
    by_cases same : i = id
    · subst same
      rw [if_pos rfl]
      exact absent
    · simp only [same, if_false]
      rfl

/-! ### Putting a connection away -/

theorem park?_of_used (known : r.slot? id = some slot) (used : slot ≠ .idle) :
    ∃ mid, r.park? id = some mid := by
  obtain ⟨e, found, rfl⟩ := find?_of_slot? known
  exact ⟨_, by rw [park?, found]; exact if_neg used⟩

theorem slot?_checkIn? (known : r.slot? id = some slot) (used : slot ≠ .idle) :
    ((r.checkIn? id).getD r).slot? i = if i = id then some .idle else r.slot? i := by
  obtain ⟨mid, parked⟩ := park?_of_used known used
  rw [checkIn?, parked]
  exact (slot?_park? parked).2 i

theorem slot?_putBack? (known : r.slot? id = some slot) (used : slot ≠ .idle) :
    ((r.putBack? id).getD r).slot? i = if i = id then some .idle else r.slot? i := by
  obtain ⟨mid, parked⟩ := park?_of_used known used
  rw [putBack?, parked]
  exact (slot?_park? parked).2 i

/-! ### What is left alone -/

theorem size_eq (r : Registry) : r.size = r.ids.length :=
  (List.length_map _).symm

theorem size_register (r : Registry) (id : ConnId) (serial : Serial) :
    (r.register id serial).size ≤ r.size + 1 := by
  unfold register size
  dsimp only
  split <;> simp

structure Moved (r r' : Registry) : Prop where
  connecting : r'.connecting = r.connecting
  closing : r'.closing = r.closing
  names : r'.names = r.names

theorem Moved.ids (moved : Moved r r') : r'.ids = r.ids := by
  rw [ids_eq_names, moved.names, ids_eq_names]

theorem Moved.size (moved : Moved r r') : r'.size + r'.connecting = r.size + r.connecting := by
  rw [size_eq, size_eq, moved.ids, moved.connecting]

theorem moved_checkout? (taken : r.checkout? = some (id, r')) : Moved r r' := by
  simp only [checkout?] at taken
  split at taken
  · cases taken
  · simp only [Option.some.injEq, Prod.mk.injEq] at taken
    obtain ⟨rfl, rfl⟩ := taken
    split
    · exact ⟨rfl, rfl, names_relabel _ _ _⟩
    · exact ⟨rfl, rfl, rfl⟩

theorem moved_beginCheck? (begun : r.beginCheck? id = some (serial, r')) : Moved r r' := by
  simp only [beginCheck?] at begun
  split at begun
  · split at begun
    · cases begun
      exact ⟨rfl, rfl, names_relabel _ _ _⟩
    · cases begun
  · cases begun

theorem moved_handOver : Moved r (r.handOver id) := by
  simp only [handOver]
  split
  · exact ⟨rfl, rfl, names_relabel _ _ _⟩
  · exact ⟨rfl, rfl, rfl⟩

theorem moved_park? (parked : r.park? id = some r') : Moved r r' := by
  simp only [park?] at parked
  split at parked
  · split at parked
    · cases parked
    · cases parked
      exact ⟨rfl, rfl, names_relabel _ _ _⟩
  · cases parked

theorem moved_parked {f : Registry → Registry} (moved : ∀ m, Moved m (f m)) :
    Moved r (((r.park? id).map f).getD r) := by
  cases parked : r.park? id with
  | none => exact ⟨rfl, rfl, rfl⟩
  | some mid =>
    have away := moved_park? parked
    have put := moved mid
    exact ⟨put.connecting.trans away.connecting, put.closing.trans away.closing,
      put.names.trans away.names⟩

theorem moved_checkIn? : Moved r ((r.checkIn? id).getD r) :=
  moved_parked fun _ => ⟨rfl, rfl, rfl⟩

theorem moved_putBack? : Moved r ((r.putBack? id).getD r) :=
  moved_parked fun _ => ⟨rfl, rfl, rfl⟩

structure Dropped (r r' : Registry) (id : ConnId) : Prop where
  connecting : r'.connecting = r.connecting
  closing : ∀ i ∈ r'.closing, i ∈ r.closing ∨ i = id ∧ id ∈ r.ids
  ids : r'.ids.Sublist r.ids

theorem Dropped.size (dropped : Dropped r r' id) :
    r'.size + r'.connecting ≤ r.size + r.connecting := by
  rw [size_eq, size_eq, dropped.connecting]
  exact Nat.add_le_add_right dropped.ids.length_le _

theorem frame_remove? (removed : r.remove? id = some (serial, r')) :
    r'.connecting = r.connecting ∧ r'.closing = r.closing ∧ r'.ids.Sublist r.ids := by
  simp only [remove?] at removed
  split at removed
  · simp only [Option.some.injEq, Prod.mk.injEq] at removed
    obtain ⟨-, rfl⟩ := removed
    split <;> exact ⟨rfl, rfl, List.filter_sublist.map _⟩
  · cases removed

theorem mem_ids_of_remove? (removed : r.remove? id = some (serial, r')) : id ∈ r.ids := by
  simp only [remove?] at removed
  split at removed
  · next e found => exact mem_ids_of_slot? (slot?_of_find? found)
  · cases removed

theorem dropped_discard? {confirms : Serial → Bool}
    (removed : r.discard? confirms id = some (serial, r')) : Dropped r r' id := by
  simp only [discard?, Option.map_eq_some_iff, Prod.exists, Prod.mk.injEq] at removed
  obtain ⟨_, mid, gone, -, rfl⟩ := removed
  obtain ⟨connecting, closing, ids⟩ := frame_remove? gone
  split
  · exact ⟨connecting, fun i member => .inl (closing ▸ member), ids⟩
  · refine ⟨connecting, fun i member => ?_, ids⟩
    rcases List.mem_append.mp member with member | here
    · exact .inl (closing ▸ member)
    · exact .inr ⟨List.mem_singleton.mp here, mem_ids_of_remove? gone⟩

theorem dropped_forget : Dropped r (r.forget id).2 id := by
  simp only [forget]
  split
  · next gone =>
    obtain ⟨connecting, closing, ids⟩ := frame_remove? gone
    refine ⟨connecting, fun i member => .inl ?_, ids⟩
    rw [closing] at member
    exact (List.mem_filter.mp member).1
  · exact ⟨rfl, fun i member => .inl (List.mem_filter.mp member).1, List.Sublist.refl _⟩

/-! ### What is left of the names -/

theorem names_register (fresh : id ∉ r.ids) :
    (r.register id serial).names = r.names ++ [(id, serial)] := by
  have unknown : r.entries.any (·.id = id) = false := by
    simpa [ids, List.any_eq_false] using fresh
  simp only [register, names, unknown]
  simp [Entry.name]

theorem names_filter (entries : List Entry) (id : ConnId) :
    (entries.filter (·.id ≠ id)).map Entry.name = (entries.map Entry.name).filter (·.1 ≠ id) := by
  rw [List.filter_map]
  rfl

theorem mem_names_of_serial? (known : r.serial? id = some serial) : (id, serial) ∈ r.names := by
  obtain ⟨e, found, rfl⟩ := Option.map_eq_some_iff.mp known
  have member := List.mem_of_find?_eq_some found
  rw [← id_of_find? found]
  exact List.mem_map_of_mem (f := Entry.name) member

theorem serial?_of_mem_names (distinct : r.ids.Nodup) (member : (id, serial) ∈ r.names) :
    r.serial? id = some serial := by
  obtain ⟨e, listed, same⟩ := List.mem_map.mp member
  cases same
  exact congrArg (Option.map (·.serial)) (Keyed.find?_of_mem distinct listed)

theorem mem_names_of_remove? (removed : r.remove? id = some (serial, r')) :
    (id, serial) ∈ r.names :=
  mem_names_of_serial? (serial?_of_remove? removed)

theorem mem_names_of_discard? {confirms : Serial → Bool}
    (removed : r.discard? confirms id = some (serial, r')) : (id, serial) ∈ r.names := by
  simp only [discard?, Option.map_eq_some_iff, Prod.exists, Prod.mk.injEq] at removed
  obtain ⟨_, mid, gone, rfl, -⟩ := removed
  exact mem_names_of_remove? gone

theorem names_discard? {confirms : Serial → Bool}
    (removed : r.discard? confirms id = some (serial, r')) :
    r'.names = r.names.filter (·.1 ≠ id) := by
  rw [names, entries_discard? removed, names_filter]
  rfl

theorem closing_discard? {confirms : Serial → Bool}
    (removed : r.discard? confirms id = some (serial, r')) :
    (∀ i ∈ r.closing, i ∈ r'.closing) ∧ (confirms serial = true ∨ id ∈ r'.closing) := by
  simp only [discard?, Option.map_eq_some_iff, Prod.exists, Prod.mk.injEq] at removed
  obtain ⟨_, mid, gone, rfl, rfl⟩ := removed
  have same := (frame_remove? gone).2.1
  split
  · next settled =>
    exact ⟨fun i member => same ▸ member, settled⟩
  · refine ⟨fun i member => List.mem_append_left _ (same ▸ member), .inr ?_⟩
    exact List.mem_append_right _ (List.mem_singleton_self _)

theorem length_closing_discard? {confirms : Serial → Bool}
    (removed : r.discard? confirms id = some (serial, r')) :
    r'.closing.length ≤ r.closing.length + 1 := by
  simp only [discard?, Option.map_eq_some_iff, Prod.exists, Prod.mk.injEq] at removed
  obtain ⟨_, mid, gone, -, rfl⟩ := removed
  have same := (frame_remove? gone).2.1
  split
  · rw [same]
    exact Nat.le_succ _
  · rw [List.length_append, same]
    exact Nat.le_refl _

theorem names_forget : (r.forget id).2.names = r.names.filter (·.1 ≠ id) := by
  simp only [forget]
  split
  · next gone =>
    rw [names, entries_remove? gone, names_filter]
    rfl
  · next kept =>
    have unknown := remove?_eq_none.mp kept
    have absent : id ∉ r.ids := unknown
    refine (List.filter_eq_self.mpr fun n member => ?_).symm
    obtain ⟨e, listed, rfl⟩ := List.mem_map.mp member
    have other : e.id ≠ id := fun same => absent (same ▸ List.mem_map_of_mem listed)
    exact decide_eq_true other

theorem closing_forget : (r.forget id).2.closing = r.closing.filter (· ≠ id) := by
  simp only [forget]
  split
  · next gone => exact (frame_remove? gone).2.1
  · rfl

end Registry
end LoanPool
