import LoanPool.Proofs.Accounting
import LoanPool.Proofs.Dues
import LoanPool.Proofs.Moments

/-!
# Callers and their answers

Every caller is to be answered once at most, and waits for it or has left; so whoever is answered
and has not left finds the answer. A caller that is answered is not to be answered again.
-/
namespace LoanPool
open Pending (Request)

def Scene.owed (sc : Scene) (k : Ticket) : Nat :=
  sc.dues (fun r => r.ticket = k) (fun t => t = k)

structure Scene.Ledger (sc : Scene) : Prop where
  distinct : (sc.site.tickets.map (·.1)).Nodup
  once : ∀ k, sc.owed k ≤ 1
  unanswered : ∀ k, 0 < sc.owed k →
    sc.site.standing k = .waiting ∨ sc.site.standing k = .abandoned

def Site.Event.asks : Site.Event → Option Ticket
  | .acquire k => some k
  | .close k => some k
  | .stats k => some k
  | .release _ reply => some reply
  | _ => none

namespace Site
variable {s : Site} {k : Ticket} {e : Event} {now : Nat}

theorem isNew_of_asks (allowed : s.allows now e = true) (asks : e.asks = some k) :
    s.isNew k = true := by
  cases e with
  | acquire k' =>
    cases asks
    exact (Bool.and_eq_true_iff.mp allowed).2
  | close k' =>
    cases asks
    exact (Bool.and_eq_true_iff.mp allowed).2
  | stats k' =>
    cases asks
    exact (Bool.and_eq_true_iff.mp allowed).2
  | release k' reply =>
    cases asks
    exact (Bool.and_eq_true_iff.mp allowed).2
  | _ => cases asks

theorem standing_of_isNew (new : s.isNew k = true) : s.standing k = .spent := by
  have unknown : s.tickets.lookup k = none := by simpa [isNew] using new
  rw [standing, unknown]
  rfl

theorem standing_ask_self (new : s.isNew k = true) (c : Command) :
    (s.ask k c).standing k = .waiting := by
  have unknown : s.tickets.lookup k = none := by simpa [isNew] using new
  change ((s.tickets ++ [(k, Standing.waiting)]).lookup k).getD .spent = _
  rw [List.lookup_append, unknown]
  simp

theorem isNew_setStanding (new : s.isNew k = true) (k' : Ticket) (standing : Standing) :
    (s.setStanding k' standing).isNew k = true := by
  have unknown : s.tickets.lookup k = none := by simpa [isNew] using new
  rw [isNew, lookup_setStanding, unknown]
  split <;> rfl

theorem holding_of_isLent (lent : s.isLent k = true) :
    ∃ id serial, s.standing k = .holding id serial := by
  simp only [isLent] at lent
  split at lent
  · next id serial holding => exact ⟨id, serial, holding⟩
  · cases lent

theorem standing_of_asks (allowed : s.allows now e = true) (asks : e.asks = some k) :
    (s.happen e).standing k = .waiting := by
  have new := isNew_of_asks allowed asks
  cases e with
  | acquire k' =>
    cases asks
    exact standing_ask_self new _
  | close k' =>
    cases asks
    exact standing_ask_self new _
  | stats k' =>
    cases asks
    exact standing_ask_self new _
  | release k' reply =>
    cases asks
    have lent : s.isLent k' = true :=
      (Bool.and_eq_true_iff.mp (Bool.and_eq_true_iff.mp allowed).1).2
    obtain ⟨id, serial, holding⟩ := holding_of_isLent lent
    simp only [happen, release, holding]
    exact standing_ask_self (isNew_setStanding new k' .spent) _
  | _ => cases asks

theorem countP_sends (k : Ticket) :
    (s.sends e).countP (·.concerns (fun r => r.ticket = k) (fun t => t = k)) ≤
      if e.asks = some k then 1 else 0 := by
  cases e with
  | acquire k' => simp [sends, Event.asks, Command.concerns, Command.requests, Command.replies]
  | close k' => simp [sends, Event.asks, Command.concerns, Command.requests, Command.replies]
  | stats k' => simp [sends, Event.asks, Command.concerns, Command.requests, Command.replies]
  | release k' reply =>
    simp only [sends]
    split
    · simp [Event.asks, Command.concerns, Command.requests, Command.replies]
    · exact Nat.zero_le _
  | abandon k' =>
    simp only [sends]
    split
    · split <;> exact Nat.zero_le _
    · exact Nat.zero_le _
  | dropLoan k' =>
    simp only [sends]
    split
    · split <;> exact Nat.zero_le _
    · exact Nat.zero_le _
  | deadline timer =>
    simp only [sends]
    split
    · split <;> exact Nat.zero_le _
    · exact Nat.zero_le _
  | notice id =>
    simp only [sends]
    split <;> exact Nat.zero_le _
  | _ => exact Nat.zero_le _

/-! Tickets are used once, and none is lost. -/

theorem isNew_iff : s.isNew k = true ↔ k ∉ s.tickets.map (·.1) := by
  rw [isNew, Option.isNone_iff_eq_none, List.lookup_eq_none_iff]
  constructor
  · intro absent member
    obtain ⟨entry, listed, same⟩ := List.mem_map.mp member
    have other := absent entry listed
    simp [same] at other
  · intro absent entry listed
    exact bne_iff_ne.mpr fun same => absent (List.mem_map.mpr ⟨entry, listed, same.symm⟩)

theorem keys_setStanding (s : Site) (k : Ticket) (standing : Standing) :
    (s.setStanding k standing).tickets.map (·.1) = s.tickets.map (·.1) := by
  simp only [setStanding, List.map_map]
  congr 1
  funext entry
  simp only [Function.comp]
  split
  · next same => exact same.symm
  · rfl

theorem keys_ask (s : Site) (k : Ticket) (c : Command) :
    (s.ask k c).tickets.map (·.1) = s.tickets.map (·.1) ++ [k] := by
  change (s.tickets ++ [(k, Standing.waiting)]).map (·.1) = _
  rw [List.map_append]
  rfl

theorem keys_happen (s : Site) (e : Event) :
    (s.happen e).tickets.map (·.1) = s.tickets.map (·.1) ∨
      ∃ k, e.asks = some k ∧ (s.happen e).tickets.map (·.1) = s.tickets.map (·.1) ++ [k] := by
  cases e with
  | acquire k => exact .inr ⟨k, rfl, keys_ask s k _⟩
  | close k => exact .inr ⟨k, rfl, keys_ask s k _⟩
  | stats k => exact .inr ⟨k, rfl, keys_ask s k _⟩
  | release k reply =>
    simp only [happen, release]
    split
    · exact .inr ⟨reply, rfl, by rw [keys_ask, keys_setStanding]⟩
    · exact .inl rfl
  | read k =>
    simp only [happen, read]
    split
    · exact .inl (keys_setStanding s k _)
    · exact .inl (keys_setStanding s k _)
    · exact .inl rfl
  | abandon k =>
    simp only [happen, abandon]
    split
    · exact .inl (keys_setStanding s k _)
    · rw [tickets_report]
      exact .inl (keys_setStanding s k _)
    · exact .inl (keys_setStanding s k _)
    · exact .inl rfl
  | dropLoan k =>
    simp only [happen, dropLoan]
    split
    · rw [tickets_report]
      exact .inl (keys_setStanding s k _)
    · exact .inl rfl
  | connected job result =>
    simp only [happen, finishConnect]
    split
    · exact .inl rfl
    · split <;> exact .inl rfl
  | checked job healthy =>
    simp only [happen, finishCheck]
    split <;> exact .inl rfl
  | deadline timer =>
    simp only [happen, passDeadline]
    split
    · exact .inl rfl
    · rw [tickets_report]
      exact .inl rfl
  | notice id =>
    left
    simp only [happen, noticeClose, tickets_report]
  | _ => exact .inl rfl

theorem keys_enact (s : Site) (now : Nat) (e : Effect) :
    (s.enact now e).tickets.map (·.1) = s.tickets.map (·.1) := by
  cases e with
  | answer k outcome =>
    simp only [enact]
    split
    · exact keys_setStanding s k _
    · rfl
  | _ => rfl

theorem isNew_of_happen (new : (s.happen e).isNew k = true) : s.isNew k = true := by
  rw [isNew_iff] at new ⊢
  rcases keys_happen s e with same | ⟨k', -, more⟩
  · exact same ▸ new
  · rw [more] at new
    exact fun member => new (List.mem_append_left _ member)

theorem isNew_enact (s : Site) (now : Nat) (e : Effect) (k : Ticket) :
    (s.enact now e).isNew k = s.isNew k := by
  rw [Bool.eq_iff_iff, isNew_iff, isNew_iff, keys_enact]

theorem distinct_happen (distinct : (s.tickets.map (·.1)).Nodup)
    (allowed : s.allows now e = true) : ((s.happen e).tickets.map (·.1)).Nodup := by
  rcases keys_happen s e with same | ⟨k, asks, more⟩
  · exact same ▸ distinct
  · have unknown := isNew_iff.mp (isNew_of_asks allowed asks)
    rw [more, List.nodup_append]
    refine ⟨distinct, by simp, ?_⟩
    rintro k' member other single rfl
    exact unknown (List.mem_singleton.mp single ▸ member)

theorem distinct_enact (distinct : (s.tickets.map (·.1)).Nodup) (now : Nat) (e : Effect) :
    ((s.enact now e).tickets.map (·.1)).Nodup :=
  keys_enact s now e ▸ distinct

theorem tickets_next? {c : Option Command} {rest : Site} (due : s.next? = some (c, rest)) :
    rest.tickets = s.tickets := by
  cases next_of_due due <;> rfl

end Site

variable {sc sc' : Scene}

theorem distinct_move (ledger : sc.Ledger) (move : Move sc sc') :
    (sc'.site.tickets.map (·.1)).Nodup := by
  have shift := shift_move move
  generalize sc'.site = after at shift
  cases shift with
  | event allowed => exact Site.distinct_happen ledger.distinct allowed
  | begin due => exact Site.tickets_next? due ▸ ledger.distinct
  | pool p => exact ledger.distinct
  | @effect p h e reachable =>
    have same : ((sc.site.withPool p).tickets.map (·.1)).Nodup := ledger.distinct
    exact Site.distinct_enact same sc.now e

theorem owed_move (move : Move sc sc') (k : Ticket) :
    sc'.owed k ≤ sc.owed k ∨ ∃ later e, sc.site.allows later e = true ∧
      sc' = { sc with now := later, site := sc.site.happen e } := by
  apply dues_move move
  · exact fun _ same => same
  · exact fun _ same => same
  · exact fun _ _ same => same
  · intro r
    rw [ticket_expire]
    exact id

theorem once_move (a : sc.Accounted) (ledger : sc.Ledger) (move : Move sc sc') (k : Ticket) :
    sc'.owed k ≤ 1 := by
  rcases owed_move move k with less | ⟨later, e, allowed, rfl⟩
  · exact Nat.le_trans less (ledger.once k)
  · have sent := Site.countP_sends (s := sc.site) (e := e) k
    have more : Scene.owed _ k = _ := dues_happen a.numbered later e
    have once := ledger.once k
    split at sent
    · next asks =>
      -- A new caller is unknown before, and so is owed nothing yet.
      have unknown := Site.standing_of_isNew (Site.isNew_of_asks allowed asks)
      have nothing : sc.owed k = 0 := by
        by_contra some
        have unanswered := ledger.unanswered k (Nat.pos_of_ne_zero some)
        simp [unknown] at unanswered
      simp only [Scene.owed] at *
      omega
    · simp only [Scene.owed] at *
      omega

theorem owed_of_held {r : Request} {rs : List Request} (held : sc.hand.requests = r :: rs) :
    0 < sc.owed r.ticket := by
  rw [Scene.owed, dues_eq]
  simp only [Hand.dues, held, countP_cons_toNat, decide_true, Bool.toNat_true]
  omega

/-- Whoever is answered is owed one answer less. -/
theorem owed_answering {k : Ticket} {outcome : Outcome} {p : Pool} {h : Hand}
    (answering : Answering sc k outcome h) (same : ∀ f g, p.dues f g = sc.pool.dues f g) :
    ((sc.alter p h).emit (.answer k outcome)).owed k + 1 ≤ sc.owed k := by
  simp only [Scene.owed]
  rw [dues_emit, dues_alter, same]
  cases answering with
  | stats task =>
    rw [dues_of_task task]
    simp only [Command.requests, Command.replies, Hand.dues, Effect.starts, countP_cons_toNat,
      List.countP_nil, decide_true, Bool.toNat_true, Option.join_none, Option.toList_none]
    omega
  | refuse task closed =>
    rw [dues_of_task task]
    simp only [Command.requests, Command.replies, Hand.dues, Effect.starts, countP_cons_toNat,
      List.countP_nil, decide_true, Bool.toNat_true, Option.join_none, Option.toList_none]
    omega
  | fail held grounds =>
    rw [dues_eq]
    simp only [Hand.dues, held, Effect.starts, countP_cons_toNat, List.countP_nil, decide_true,
      Bool.toNat_true]
    omega
  | lend held conn =>
    rw [dues_eq]
    simp only [Hand.dues, held, Effect.starts, countP_cons_toNat, List.countP_nil, decide_true,
      Bool.toNat_true]
    omega
  | reply owed plain =>
    rw [dues_eq]
    simp only [Hand.dues, owed, Effect.starts, countP_cons_toNat, List.countP_nil, decide_true,
      Bool.toNat_true]
    omega

/-- An answer is due once, so whoever is still owed one is not the caller who is answered. -/
theorem standing_of_answering (ledger : sc.Ledger) {k k' : Ticket} {outcome : Outcome} {p : Pool}
    {h : Hand} (answering : Answering sc k' outcome h)
    (same : ∀ f g, p.dues f g = sc.pool.dues f g)
    (due : 0 < ((sc.alter p h).emit (.answer k' outcome)).owed k) :
    ((sc.alter p h).emit (.answer k' outcome)).site.standing k = sc.site.standing k := by
  refine Site.standing_enact_of_ne (s := sc.site.withPool p) ?_ sc.now
  rintro outcome eq
  cases eq
  have once := ledger.once k
  have less := owed_answering answering same
  omega

theorem standing_move (ledger : sc.Ledger) (move : Move sc sc') {k : Ticket}
    (unanswered : sc.site.standing k = .waiting ∨ sc.site.standing k = .abandoned)
    (due : 0 < sc'.owed k) :
    sc'.site.standing k = sc.site.standing k ∨ sc'.site.standing k = .abandoned := by
  cases move with
  | event order allowed => exact Site.unanswered_happen unanswered _
  | begin free next => exact .inl (by rw [Site.standing, Site.standing, Site.tickets_next? next])
  | refuse task closed =>
    exact .inl (standing_of_answering ledger (.refuse task closed) (fun _ _ => rfl) due)
  | stats task => exact .inl (standing_of_answering ledger (.stats task) (fun _ _ => rfl) due)
  | fail held unarmed grounds =>
    exact .inl (standing_of_answering ledger (.fail held grounds) (fun _ _ => rfl) due)
  | lend held unarmed conn known lent present =>
    exact .inl (standing_of_answering ledger (.lend held conn) (fun _ _ => rfl) due)
  | answer owed plain =>
    exact .inl (standing_of_answering ledger (.reply owed plain) (fun _ _ => rfl) due)
  | _ => exact .inl rfl

theorem unanswered_move (a : sc.Accounted) (ledger : sc.Ledger) (move : Move sc sc')
    {k : Ticket} (due : 0 < sc'.owed k) :
    sc'.site.standing k = .waiting ∨ sc'.site.standing k = .abandoned := by
  have kept : 0 < sc.owed k →
      sc'.site.standing k = .waiting ∨ sc'.site.standing k = .abandoned := by
    intro owed
    have before := ledger.unanswered k owed
    rcases standing_move ledger move before due with same | gone
    · rw [same]
      exact before
    · exact .inr gone
  rcases owed_move move k with less | ⟨later, e, allowed, rfl⟩
  · exact kept (Nat.lt_of_lt_of_le due less)
  · by_cases asks : e.asks = some k
    · exact .inl (Site.standing_of_asks allowed asks)
    · have sent := Site.countP_sends (s := sc.site) (e := e) k
      have more : Scene.owed _ k = _ := dues_happen a.numbered later e
      rw [if_neg asks] at sent
      apply kept
      simp only [Scene.owed] at *
      omega

theorem ledger_move (a : sc.Accounted) (move : Move sc sc') (ledger : sc.Ledger) : sc'.Ledger where
  distinct := distinct_move ledger move
  once := once_move a ledger move
  unanswered _ due := unanswered_move a ledger move due

theorem ledger_start (config : Config) (observer : Hook → Nat → Option String) :
    (Scene.start config observer).Ledger where
  distinct := List.nodup_nil
  once _ := Nat.zero_le 1
  unanswered _ due := absurd due (Nat.lt_irrefl 0)

end LoanPool
