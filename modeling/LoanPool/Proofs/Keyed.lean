/-!
# Lists with distinct keys

Connections, pieces of work and callers stand in lists in which no two have the same key. Taking one
out, or changing one, leaves the others alone.
-/
namespace LoanPool.Keyed
variable {α β : Type} {key : α → β} {l : List α} {a : α}

theorem split (distinct : (l.map key).Nodup) (member : a ∈ l) :
    ∃ front back, l = front ++ a :: back ∧ (∀ x ∈ front, key x ≠ key a) ∧
      ∀ x ∈ back, key x ≠ key a := by
  obtain ⟨front, back, rfl⟩ := List.append_of_mem member
  rw [List.map_append, List.map_cons, List.nodup_append, List.nodup_cons] at distinct
  refine ⟨front, back, rfl, fun x before => ?_, fun x behind same => ?_⟩
  · exact distinct.2.2 _ (List.mem_map_of_mem before) _ List.mem_cons_self
  · exact distinct.2.1.1 (same ▸ List.mem_map_of_mem behind)

theorem eq_of_countP_le_one {p : α → Bool} {b : α} (few : l.countP p ≤ 1) (member : a ∈ l)
    (hit : p a = true) (other : b ∈ l) (hit' : p b = true) : a = b := by
  rw [List.countP_eq_length_filter] at few
  have here := List.mem_filter.mpr ⟨member, hit⟩
  have there := List.mem_filter.mpr ⟨other, hit'⟩
  match found : l.filter p with
  | [] => simp [found] at here
  | [one] =>
    rw [found, List.mem_singleton] at here there
    rw [here, there]
  | _ :: _ :: _ => simp [found] at few

theorem split_of_countP_le_one {p : α → Bool} {b : α} {front back front' back' : List α}
    (few : (front ++ a :: back).countP p ≤ 1) (hit : p a = true) (hit' : p b = true)
    (same : front ++ a :: back = front' ++ b :: back') : front = front' ∧ a = b ∧ back = back' := by
  induction front generalizing front' with
  | nil =>
    cases front' with
    | nil =>
      cases same
      exact ⟨rfl, rfl, rfl⟩
    | cons first rest =>
      obtain ⟨rfl, rfl⟩ : a = first ∧ back = rest ++ b :: back' := by simpa using same
      simp [hit, hit'] at few
  | cons first rest ih =>
    cases front' with
    | nil =>
      obtain ⟨rfl, rfl⟩ : first = b ∧ rest ++ a :: back = back' := by simpa using same
      simp [hit, hit'] at few
    | cons first' rest' =>
      rw [List.cons_append, List.cons_append, List.cons.injEq] at same
      obtain ⟨rfl, same⟩ := same
      rw [List.cons_append, List.countP_cons] at few
      obtain ⟨rfl, rfl, rfl⟩ := ih (Nat.le_trans (Nat.le_add_right _ _) few) same
      exact ⟨rfl, rfl, rfl⟩

variable [DecidableEq β]

theorem find?_of_mem (distinct : (l.map key).Nodup) (member : a ∈ l) :
    l.find? (key · = key a) = some a := by
  obtain ⟨front, back, rfl, before, -⟩ := split distinct member
  exact List.find?_eq_some_iff_append.mpr
    ⟨by simp, front, back, rfl, fun x here => by simpa using before x here⟩

theorem countP_remove (distinct : (l.map key).Nodup) (member : a ∈ l) (p : α → Bool) :
    (l.filter (key · ≠ key a)).countP p + (p a).toNat = l.countP p := by
  obtain ⟨front, back, rfl, before, behind⟩ := split distinct member
  have kept : (front ++ a :: back).filter (key · ≠ key a) = front ++ back := by
    rw [List.filter_append, List.filter_cons,
      List.filter_eq_self.mpr fun x here => by simpa using before x here,
      List.filter_eq_self.mpr fun x here => by simpa using behind x here]
    simp
  rw [kept, List.countP_append, List.countP_append, List.countP_cons, Nat.add_assoc]
  cases p a <;> rfl

theorem map_of_absent {k : β} (absent : ∀ x ∈ l, key x ≠ k) (f : α → α) :
    (l.map fun x => if key x = k then f x else x) = l := by
  rw [List.map_congr_left (g := id), List.map_id]
  intro x member
  exact if_neg (absent x member)

theorem countP_change (distinct : (l.map key).Nodup) (member : a ∈ l) (f : α → α)
    (p : α → Bool) :
    (l.map fun x => if key x = key a then f x else x).countP p + (p a).toNat =
      l.countP p + (p (f a)).toNat := by
  obtain ⟨front, back, rfl, before, behind⟩ := split distinct member
  have changed : ((front ++ a :: back).map fun x => if key x = key a then f x else x) =
      front ++ f a :: back := by
    rw [List.map_append, List.map_cons, map_of_absent before, map_of_absent behind, if_pos rfl]
  rw [changed, List.countP_append, List.countP_append, List.countP_cons, List.countP_cons]
  cases p a <;> cases p (f a) <;> simp <;> omega

end LoanPool.Keyed
