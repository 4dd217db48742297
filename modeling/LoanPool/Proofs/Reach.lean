import LoanPool.Site.Run
import Mathlib.Data.List.Induction

/-!
# The end of a pool

A pool that nothing holds on to any more is lost for good: no event brings a handle or work back,
and of the effects of the pool only those that start work would. Nothing but the pool brings about
its end, and that is never undone.
-/
namespace LoanPool

/-- The command that the work started by an effect will come back with. -/
def Effect.starts : Effect → List Command
  | .connect target => [.connected target (.error "")]
  | .check id _ reply => [.checked id false reply]
  | _ => []

namespace Site
variable {s : Site}

inductive Next (s : Site) : Option Command → Site → Prop where
  | command {c : Command} {waiting : List Command} (oldest : s.mailbox = c :: waiting) :
    Next s (some c) { s with mailbox := waiting }
  | ending (empty : s.mailbox = []) (lost : s.isReachable = false) :
    Next s none { s with ended := true }

theorem next_of_due {c : Option Command} {rest : Site} (due : s.next? = some (c, rest)) :
    s.Next c rest := by
  simp only [next?] at due
  split at due
  · next oldest =>
    cases due
    exact .command oldest
  · next empty =>
    split at due
    · cases due
    · next alone =>
      cases due
      exact .ending empty (by simpa using fun reachable => alone (.inl reachable))

/-! ### The end of the pool -/

theorem ended_report (c : Command) : (s.report c).ended = s.ended := by
  simp only [report]
  split <;> rfl

theorem ended_happen (e : Event) : (s.happen e).ended = s.ended := by
  cases e with
  | release k reply =>
    simp only [happen, release]
    split <;> rfl
  | read k =>
    simp only [happen, read]
    split <;> rfl
  | abandon k =>
    simp only [happen, abandon]
    split
    · rfl
    · exact ended_report _
    · rfl
    · rfl
  | dropLoan k =>
    simp only [happen, dropLoan]
    split
    · exact ended_report _
    · rfl
  | connected job result =>
    simp only [happen, finishConnect]
    split
    · rfl
    · split <;> rfl
  | checked job healthy =>
    simp only [happen, finishCheck]
    split <;> rfl
  | deadline timer =>
    simp only [happen, passDeadline]
    split
    · rfl
    · exact ended_report _
  | notice id => exact ended_report _
  | _ => rfl

theorem ended_enact (now : Nat) (e : Effect) : (s.enact now e).ended = s.ended := by
  cases e with
  | answer k outcome =>
    simp only [enact]
    split <;> rfl
  | _ => rfl

theorem ended_drift {now : Nat} {s' : Site} (drift : Drift now s s') : s'.ended = s.ended := by
  induction drift with
  | refl => rfl
  | next _ _ ih => exact (ended_happen _).trans ih

theorem Course.ended_amid {now : Nat} {s : Site} (course : Course now s) (log : List Effect) :
    (course.amid log).ended = s.ended := by
  -- The course goes on from each effect, so the induction is on the last one.
  induction log using List.reverseRecOn with
  | nil => exact ended_drift course.begins
  | append_singleton log e ih =>
    exact (ended_drift (course.goes log e)).trans ((ended_enact _ _).trans ih)

/-! ### Whether anybody holds on to the pool -/

theorem reachable_report (c : Command) : (s.report c).isReachable = s.isReachable := by
  simp only [report]
  split <;> rfl

theorem reachable_of_connect {j : ConnectJob} {job : JobId} (found : s.connectJob? job = some j) :
    s.isReachable = true := by
  have member := List.mem_of_find?_eq_some found
  simp [isReachable, List.ne_nil_of_mem member]

theorem reachable_of_check {j : CheckJob} {job : JobId} (found : s.checkJob? job = some j) :
    s.isReachable = true := by
  have member := List.mem_of_find?_eq_some found
  simp [isReachable, List.ne_nil_of_mem member]

/-- A pool that nothing holds on to any more is lost for good. -/
theorem reachable_of_happen {now : Nat} {e : Event} (allowed : s.allows now e = true)
    (reachable : (s.happen e).isReachable = true) : s.isReachable = true := by
  cases e with
  | release k reply =>
    simp only [happen, release] at reachable
    cases standing : s.standing k <;> rw [standing] at reachable <;> exact reachable
  | read k =>
    simp only [happen, read] at reachable
    split at reachable <;> exact reachable
  | abandon k =>
    simp only [happen, abandon] at reachable
    split at reachable
    · exact reachable
    · exact (reachable_report (s := s.setStanding k .abandoned) _).symm.trans reachable
    · exact reachable
    · exact reachable
  | dropLoan k =>
    simp only [happen, dropLoan] at reachable
    split at reachable
    · exact (reachable_report (s := s.setStanding k .spent) _).symm.trans reachable
    · exact reachable
  -- Only a handle can be cloned, so one more handle is never the first.
  | clone =>
    have held : s.handles ≠ 0 := by simpa [allows] using allowed
    simp [isReachable, held]
  | dropHandle =>
    have held : s.handles ≠ 0 := by simpa [allows] using allowed
    simp [isReachable, held]
  | connected job result =>
    simp only [happen, finishConnect] at reachable
    split at reachable
    · exact reachable
    · next j found => exact reachable_of_connect found
  | checked job healthy =>
    simp only [happen, finishCheck] at reachable
    split at reachable
    · exact reachable
    · next j found => exact reachable_of_check found
  | deadline timer =>
    simp only [happen, passDeadline] at reachable
    split at reachable
    · exact reachable
    · rw [reachable_report] at reachable
      exact reachable
  | notice id =>
    simp only [happen, noticeClose, reachable_report] at reachable
    exact reachable
  | _ => exact reachable

theorem reachable_of_enact {now : Nat} {e : Effect} (idle : e.starts = [])
    (reachable : (s.enact now e).isReachable = true) : s.isReachable = true := by
  cases e with
  | connect target => cases idle
  | check id serial reply => cases idle
  | answer k outcome =>
    simp only [enact] at reachable
    split at reachable <;> exact reachable
  | _ => exact reachable

theorem reachable_next? {c : Option Command} {rest : Site} (due : s.next? = some (c, rest)) :
    rest.isReachable = s.isReachable := by
  cases next_of_due due <;> rfl

theorem reachable_of_drift {now : Nat} {s' : Site} (drift : Drift now s s')
    (reachable : s'.isReachable = true) : s.isReachable = true := by
  induction drift with
  | refl => exact reachable
  | next _ allowed ih => exact ih (reachable_of_happen allowed reachable)

/-- Only work that is started could bring back a pool that is lost in the middle of a turn. -/
theorem Course.lost_append {now : Nat} {s : Site} (course : Course now s) {log : List Effect}
    {e : Effect} (lost : (course.amid log).isReachable = false) (idle : e.starts = []) :
    (course.amid (log ++ [e])).isReachable = false := by
  rw [Bool.eq_false_iff] at lost ⊢
  intro reachable
  exact lost (reachable_of_enact idle (reachable_of_drift (course.goes log e) reachable))

theorem handles_of_lost (lost : s.isReachable = false) : s.handles = 0 := by
  simp only [isReachable, Bool.or_eq_false_iff] at lost
  simpa using lost.1.1

/-- A pool that is lost is sent nothing any more. -/
theorem mailbox_of_lost {now : Nat} {e : Event} (lost : s.isReachable = false)
    (allowed : s.allows now e = true) : (s.happen e).mailbox = s.mailbox := by
  have none_left := handles_of_lost lost
  have unsent : ∀ (s' : Site) (c : Command), s'.isReachable = false →
      (s'.report c).mailbox = s'.mailbox := by
    intro s' c lost
    simp [report, lost]
  cases e with
  | acquire k => simp [allows, none_left] at allowed
  | close k => simp [allows, none_left] at allowed
  | stats k => simp [allows, none_left] at allowed
  | release k reply => simp [allows, none_left] at allowed
  | read k =>
    simp only [happen, read]
    split <;> rfl
  | abandon k =>
    simp only [happen, abandon]
    split
    · rfl
    · exact unsent (s.setStanding k .abandoned) _ lost
    · rfl
    · rfl
  | dropLoan k =>
    simp only [happen, dropLoan]
    split
    · exact unsent (s.setStanding k .spent) _ lost
    · rfl
  | connected job result =>
    simp only [happen, finishConnect]
    split
    · rfl
    · next j found =>
      rw [reachable_of_connect found] at lost
      cases lost
  | checked job healthy =>
    simp only [happen, finishCheck]
    split
    · rfl
    · next j found =>
      rw [reachable_of_check found] at lost
      cases lost
  | deadline timer =>
    simp only [happen, passDeadline]
    split
    · rfl
    · exact unsent { s with deadlines := _ } _ lost
  | notice id => exact unsent { s with listeners := _ } _ lost
  | _ => rfl

end Site
end LoanPool
