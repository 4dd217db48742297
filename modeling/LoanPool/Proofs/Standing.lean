import LoanPool.Site.Run

/-!
# Where callers stand

What the events at a site and the effects of its pool do to the standing of a caller. A caller that
has left never comes back.
-/
namespace LoanPool.Site

theorem lookup_setStanding (s : Site) (k k' : Ticket) (standing : Standing) :
    (s.setStanding k standing).tickets.lookup k' =
      if k' = k then (s.tickets.lookup k').map fun _ => standing else s.tickets.lookup k' := by
  simp only [setStanding]
  induction s.tickets with
  | nil => simp
  | cons first rest ih =>
    obtain ⟨key, value⟩ := first
    by_cases same : k' = key
    · subst same
      by_cases hit : k' = k <;> simp [hit]
    · have skip : (k' == key) = false := beq_eq_false_iff_ne.mpr same
      by_cases hit : key = k
      · subst hit
        simp only [List.map_cons, if_true, List.lookup_cons, skip, ih]
      · simp only [List.map_cons, hit, if_false, List.lookup_cons, skip, ih]

theorem standing_setStanding_self {s : Site} {k : Ticket} (known : s.standing k ≠ .spent)
    (standing : Standing) : (s.setStanding k standing).standing k = standing := by
  simp only [Site.standing] at known ⊢
  rw [lookup_setStanding, if_pos rfl]
  cases found : s.tickets.lookup k with
  | none => simp [found] at known
  | some _ => rfl

theorem standing_setStanding_of_ne {s : Site} {k k' : Ticket} (other : k' ≠ k)
    (standing : Standing) : (s.setStanding k standing).standing k' = s.standing k' := by
  simp only [Site.standing]
  rw [lookup_setStanding, if_neg other]

theorem standing_ask_of_known {s : Site} {k : Ticket} (known : s.standing k ≠ .spent)
    (k' : Ticket) (c : Command) : (s.ask k' c).standing k = s.standing k := by
  simp only [Site.standing] at known ⊢
  change ((s.tickets ++ [(k', Standing.waiting)]).lookup k).getD .spent = _
  rw [List.lookup_append]
  cases found : s.tickets.lookup k with
  | none => simp [found] at known
  | some _ => rfl

theorem standing_report (s : Site) (c : Command) (k : Ticket) :
    (s.report c).standing k = s.standing k := by
  simp only [report]
  split <;> rfl

theorem unanswered_happen {s : Site} {k : Ticket}
    (unanswered : s.standing k = .waiting ∨ s.standing k = .abandoned) (e : Event) :
    (s.happen e).standing k = s.standing k ∨ (s.happen e).standing k = .abandoned := by
  have known : s.standing k ≠ .spent := by rcases unanswered with h | h <;> simp [h]
  -- Whoever reads, drops or gives back has been answered, so it is somebody else.
  have others : ∀ {k' : Ticket}, s.standing k' ≠ .waiting → s.standing k' ≠ .abandoned →
      ∀ standing, (s.setStanding k' standing).standing k = s.standing k := by
    intro k' answered present standing
    refine standing_setStanding_of_ne ?_ standing
    rintro rfl
    exact unanswered.elim answered present
  cases e with
  | acquire k' => exact .inl (standing_ask_of_known known _ _)
  | close k' => exact .inl (standing_ask_of_known known _ _)
  | stats k' => exact .inl (standing_ask_of_known known _ _)
  | release k' reply =>
    left
    simp only [happen, release]
    split
    · next holding =>
      have kept : (s.setStanding k' .spent).standing k = s.standing k :=
        others (by simp [holding]) (by simp [holding]) .spent
      exact (standing_ask_of_known (kept ▸ known) _ _).trans kept
    · rfl
  | read k' =>
    left
    simp only [happen, read]
    split
    · next answered => exact others (by simp [answered]) (by simp [answered]) _
    · next answered => exact others (by simp [answered]) (by simp [answered]) _
    · rfl
  | abandon k' =>
    simp only [happen, abandon]
    split
    · by_cases same : k = k'
      · subst same
        exact .inr (standing_setStanding_self known _)
      · exact .inl (standing_setStanding_of_ne same _)
    · next answered =>
      rw [standing_report]
      exact .inl (others (by simp [answered]) (by simp [answered]) _)
    · next answered => exact .inl (others (by simp [answered]) (by simp [answered]) _)
    · exact .inl rfl
  | dropLoan k' =>
    left
    simp only [happen, dropLoan]
    split
    · next holding =>
      rw [standing_report]
      exact others (by simp [holding]) (by simp [holding]) _
    · rfl
  | connected job result =>
    left
    simp only [happen, finishConnect]
    split
    · rfl
    · split <;> rfl
  | checked job healthy =>
    left
    simp only [happen, finishCheck]
    split <;> rfl
  | deadline timer =>
    left
    simp only [happen, passDeadline]
    split
    · rfl
    · exact standing_report _ _ _
  | notice id => exact .inl (standing_report _ _ _)
  | _ => exact .inl rfl

theorem abandoned_happen {s : Site} {k : Ticket} (left : s.standing k = .abandoned) (e : Event) :
    (s.happen e).standing k = .abandoned := by
  rcases unanswered_happen (.inr left) e with same | gone
  · exact same.trans left
  · exact gone

theorem standing_enact_of_ne {s : Site} {k : Ticket} {e : Effect}
    (other : ∀ outcome, e ≠ .answer k outcome) (now : Nat) :
    (s.enact now e).standing k = s.standing k := by
  cases e with
  | answer k' outcome =>
    simp only [enact]
    split
    · exact standing_setStanding_of_ne (by rintro rfl; exact other outcome rfl) _
    · rfl
  | _ => rfl

theorem abandoned_enact {s : Site} {k : Ticket} (left : s.standing k = .abandoned) (now : Nat)
    (e : Effect) : (s.enact now e).standing k = .abandoned := by
  cases e with
  | answer k' outcome =>
    simp only [enact]
    split
    · next waiting =>
      rw [standing_setStanding_of_ne (by rintro rfl; simp [left] at waiting)]
      exact left
    · exact left
  | _ => exact left

theorem abandoned_drift {now : Nat} {s s' : Site} {k : Ticket} (left : s.standing k = .abandoned)
    (drift : Drift now s s') : s'.standing k = .abandoned := by
  induction drift with
  | refl => exact left
  | next _ _ ih => exact abandoned_happen ih _

theorem Course.abandoned_append {now : Nat} {s : Site} (course : Course now s)
    {log : List Effect} {k : Ticket} (left : (course.amid log).standing k = .abandoned)
    (more : List Effect) : (course.amid (log ++ more)).standing k = .abandoned := by
  induction more generalizing log with
  | nil => simpa using left
  | cons e rest ih =>
    have next := abandoned_drift (abandoned_enact left now e) (course.goes log e)
    simpa using ih next

/-! ### Outcomes that callers have had -/

theorem tickets_report {s : Site} (c : Command) : (s.report c).tickets = s.tickets := by
  simp only [report]
  split <;> rfl

section Spent
variable {s : Site} {k : Ticket} (spent : s.tickets.lookup k = some .spent)
include spent

theorem spent_setStanding {k' : Ticket} (other : s.standing k' ≠ .spent) (standing : Standing) :
    (s.setStanding k' standing).tickets.lookup k = some .spent := by
  have apart : k ≠ k' := by
    rintro rfl
    exact other (by rw [Site.standing, spent, Option.getD_some])
  rw [lookup_setStanding, if_neg apart]
  exact spent

theorem spent_ask (k' : Ticket) (c : Command) :
    (s.ask k' c).tickets.lookup k = some .spent := by
  change (s.tickets ++ [(k', Standing.waiting)]).lookup k = some .spent
  rw [List.lookup_append, spent, Option.some_or]

theorem spent_happen (e : Event) : (s.happen e).tickets.lookup k = some .spent := by
  have gone : ∀ {k' : Ticket} {old : Standing}, s.standing k' = old → old ≠ .spent →
      ∀ standing, (s.setStanding k' standing).tickets.lookup k = some .spent := by
    intro k' old eq other standing
    exact spent_setStanding spent (eq ▸ other) standing
  cases e with
  | acquire k' => exact spent_ask spent _ _
  | close k' => exact spent_ask spent _ _
  | stats k' => exact spent_ask spent _ _
  | release k' reply =>
    simp only [happen, release]
    split
    · next holding => exact spent_ask (gone holding (by simp) _) _ _
    · exact spent
  | read k' =>
    simp only [happen, read]
    split
    · next answered => exact gone answered (by simp) _
    · next answered => exact gone answered (by simp) _
    · exact spent
  | abandon k' =>
    simp only [happen, abandon]
    split
    · next waiting => exact gone waiting (by simp) _
    · next answered =>
      rw [tickets_report]
      exact gone answered (by simp) _
    · next answered => exact gone answered (by simp) _
    · exact spent
  | dropLoan k' =>
    simp only [happen, dropLoan]
    split
    · next holding =>
      rw [tickets_report]
      exact gone holding (by simp) _
    · exact spent
  | connected job result =>
    simp only [happen, finishConnect]
    split
    · exact spent
    · split <;> exact spent
  | checked job healthy =>
    simp only [happen, finishCheck]
    split <;> exact spent
  | deadline timer =>
    simp only [happen, passDeadline]
    split
    · exact spent
    · rw [tickets_report]
      exact spent
  | notice id =>
    simp only [happen, noticeClose, tickets_report]
    exact spent
  | _ => exact spent

theorem spent_enact (now : Nat) (e : Effect) :
    (s.enact now e).tickets.lookup k = some .spent := by
  cases e with
  | answer k' outcome =>
    simp only [enact]
    split
    · next waiting => exact spent_setStanding spent (by simp [waiting]) _
    · exact spent
  | _ => exact spent

end Spent
end LoanPool.Site
