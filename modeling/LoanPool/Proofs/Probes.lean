import Mathlib.Data.String.Basic
import LoanPool.Cli.Run
import LoanPool.Probe.Cycle

/-!
# Probes

How a cycle ends, and what is done in it, told by how each step turns out. Whatever happens to a
connection that was lent, it is given back once; and the report of a probe counts every cycle once,
under the kind of failure it ended with.
-/
namespace LoanPool.Probe

namespace Course

def exchanged (c : Course) : Except String Unit :=
  c.send.bind fun _ => c.receive.map fun _ => ()

def failure? (c : Course) : Option String :=
  match c.acquire with
  | .error e => some e.kind
  | .ok _ =>
    match c.release with
    | .error e => some e.kind
    | .ok () => if c.exchanged.isOk then none else some "io"

def ending (c : Course) : Except String Unit :=
  match c.failure? with
  | none => .ok ()
  | some kind => .error kind

def words (c : Course) (id : ConnId) (payload : String) : List Deed :=
  .send id payload :: if c.send.isOk then [.receive id (max payload.utf8ByteSize 1)] else []

def deeds (c : Course) (payload : String) : List Deed :=
  .acquire ::
    match c.acquire with
    | .ok id => c.words id payload ++ [.release id]
    | .error _ => []

end Course

def Deed.release? : Deed → Option ConnId
  | .release id => some id
  | _ => none

def Options.courses (o : Options) (course : Nat → Nat → Course) : List Course :=
  (List.range o.workers).flatMap fun worker => (List.range o.iterations).map (course worker)

variable {o : Options} {c : Course} {id : ConnId} {payload kind k : String} {log : List Deed}
  {counts : List (String × Nat)} {t : Tally} {courses : List Course}

/-! ### One cycle -/

theorem run_attempt {α β : Type} (deed : Deed) (answer : Except String α) (next : α → Work β)
    (log : List Deed) :
    (attempt deed answer >>= next).run.run log =
      match answer with
      | .ok a => (next a).run.run (log ++ [deed])
      | .error kind => (.error kind, log ++ [deed]) := by
  cases answer <;> rfl

theorem run_lift {α β : Type} (x : Work α) (next : Except String α → Work β) (log : List Deed) :
    (ExceptT.lift x.run >>= next).run.run log =
      (next (x.run.run log).1).run.run (x.run.run log).2 :=
  rfl

theorem run_exchange :
    (c.exchange id payload).run.run log = (c.exchanged, log ++ c.words id payload) := by
  rw [Course.exchange, run_attempt, Course.words, Course.exchanged]
  cases c.send with
  | error e => rfl
  | ok => cases c.receive <;> exact Prod.ext rfl (List.append_assoc log _ _)

theorem run_cycle : (c.cycle payload).run.run log = (c.ending, log ++ c.deeds payload) := by
  rw [Course.cycle, run_attempt, Course.deeds, Course.ending, Course.failure?]
  cases c.acquire with
  | error e => rfl
  | ok id =>
    have noted : log ++ [.acquire] ++ c.words id payload ++ [.release id] =
        log ++ .acquire :: (c.words id payload ++ [.release id]) := by simp
    simp only [Except.mapError]
    rw [run_lift, run_exchange, run_attempt, noted]
    cases c.release with
    | error e => rfl
    | ok => cases c.exchanged <;> rfl

/-- A connection that was lent is given back, and no other. -/
theorem releases_deeds :
    (c.deeds payload).filterMap Deed.release? = c.acquire.toOption.toList := by
  have silent : ∀ id, (c.words id payload).filterMap Deed.release? = [] := by
    intro id
    rw [Course.words]
    split <;> rfl
  rw [Course.deeds]
  cases c.acquire with
  | error e => rfl
  | ok id =>
    rw [List.filterMap_cons_none rfl, List.filterMap_append, silent]
    rfl

/-! ### One worker -/

theorem run_cycles (course : Nat → Course) (cycles : List Nat) (log : List Deed) :
    (cycles.mapM (m := StateM (List Deed)) fun i => ((course i).cycle payload).run).run log =
      (cycles.map fun i => (course i).ending,
        log ++ cycles.flatMap fun i => (course i).deeds payload) := by
  induction cycles generalizing log with
  | nil => exact Prod.ext rfl (List.append_nil log).symm
  | cons i rest ih =>
    have step (first : StateM (List Deed) (Except String Unit))
        (others : StateM (List Deed) (List (Except String Unit))) :
        (do return (← first) :: (← others) : StateM _ _).run log =
          ((first.run log).1 :: (others.run (first.run log).2).1,
            (others.run (first.run log).2).2) := rfl
    rw [List.mapM_cons, step, run_cycle, ih, List.append_assoc]
    rfl

/-- A worker goes through its cycles one after another, and does nothing else. -/
theorem run_worker {course : Nat → Course} :
    (o.worker course).run log =
      ((List.range o.iterations).map fun i => (course i).ending,
        log ++ (List.range o.iterations).flatMap fun i => (course i).deeds o.payload) :=
  run_cycles course _ log

/-! ### Counting -/

theorem lookup_of_below (below : ∀ entry ∈ counts, kind < entry.1) :
    counts.lookup kind = none := by
  rw [List.lookup_eq_none_iff]
  intro entry member
  simpa using (below entry member).ne

theorem lookup_entry (k first : String) (n : Nat) :
    ((first, n) :: counts).lookup k = if k = first then some n else counts.lookup k := by
  rw [List.lookup_cons]
  by_cases same : k = first
  · rw [if_pos same, beq_iff_eq.mpr same]
  · rw [if_neg same, beq_eq_false_iff_ne.mpr same]

theorem lookup_bump (sorted : counts.Pairwise (·.1 < ·.1)) (k : String) :
    (bump kind counts).lookup k =
      if k = kind then some ((counts.lookup kind).getD 0 + 1) else counts.lookup k := by
  induction counts with
  | nil => exact lookup_entry k kind 1
  | cons entry rest ih =>
    obtain ⟨first, n⟩ := entry
    obtain ⟨below, tail⟩ := List.pairwise_cons.mp sorted
    rw [bump]
    split
    · next same =>
      rw [lookup_entry, lookup_entry, lookup_entry, if_pos same, same]
      split <;> rfl
    · next other =>
      split
      · next less =>
        -- The kinds are in order, so this one was not among them.
        have unknown : ((first, n) :: rest).lookup kind = none := by
          apply lookup_of_below
          intro entry member
          rcases List.mem_cons.mp member with rfl | member
          · exact less
          · exact less.trans (below entry member)
        rw [unknown, lookup_entry]
        rfl
      · rw [lookup_entry, lookup_entry, lookup_entry, ih tail, if_neg other]
        by_cases here : k = first
        · rw [if_pos here, if_pos here, if_neg (here ▸ Ne.symm other)]
        · rw [if_neg here, if_neg here]

theorem keys_bump {entry : String × Nat} (member : entry ∈ bump kind counts) :
    entry.1 = kind ∨ entry.1 ∈ counts.map (·.1) := by
  induction counts with
  | nil => simpa [bump] using congrArg Prod.fst (List.mem_singleton.mp member)
  | cons first rest ih =>
    obtain ⟨k, n⟩ := first
    rw [bump] at member
    split at member
    · next same =>
      rcases List.mem_cons.mp member with rfl | member
      · exact .inl same.symm
      · exact .inr (List.mem_cons_of_mem _ (List.mem_map_of_mem member))
    · split at member
      · rcases List.mem_cons.mp member with rfl | member
        · exact .inl rfl
        · exact .inr (List.mem_map_of_mem member)
      · rcases List.mem_cons.mp member with rfl | member
        · exact .inr List.mem_cons_self
        · exact (ih member).imp_right (List.mem_cons_of_mem _)

theorem sorted_bump (sorted : counts.Pairwise (·.1 < ·.1)) :
    (bump kind counts).Pairwise (·.1 < ·.1) := by
  induction counts with
  | nil => exact List.pairwise_singleton _ _
  | cons first rest ih =>
    obtain ⟨k, n⟩ := first
    obtain ⟨below, tail⟩ := List.pairwise_cons.mp sorted
    rw [bump]
    split
    · exact List.pairwise_cons.mpr ⟨below, tail⟩
    · next other =>
      split
      · next less =>
        refine List.pairwise_cons.mpr ⟨fun entry member => ?_, sorted⟩
        rcases List.mem_cons.mp member with rfl | member
        · exact less
        · exact less.trans (below entry member)
      · next notLess =>
        refine List.pairwise_cons.mpr ⟨fun entry member => ?_, ih tail⟩
        rcases keys_bump member with same | member
        · rw [same]
          exact lt_of_le_of_ne (not_lt.mp notLess) (Ne.symm other)
        · obtain ⟨entry', member, same⟩ := List.mem_map.mp member
          rw [← same]
          exact below entry' member

theorem total_add (counts : List (String × Nat)) (m n : Nat) :
    counts.foldl (fun n kind => n + kind.2) (m + n) =
      counts.foldl (fun n kind => n + kind.2) m + n := by
  induction counts generalizing m with
  | nil => rfl
  | cons first rest ih =>
    rw [List.foldl_cons, List.foldl_cons, Nat.add_right_comm]
    exact ih (m + first.2)

theorem total_bump (kind : String) (counts : List (String × Nat)) (m : Nat) :
    (bump kind counts).foldl (fun n kind => n + kind.2) m =
      counts.foldl (fun n kind => n + kind.2) m + 1 := by
  induction counts generalizing m with
  | nil => rfl
  | cons first rest ih =>
    rw [bump]
    split
    · exact total_add rest (m + first.2) 1
    · split
      · exact total_add (first :: rest) m 1
      · exact ih (m + first.2)

structure Tally.Tells (t : Tally) (courses : List Course) : Prop where
  successes : t.successes = courses.countP (·.failure? = none)
  total : t.successes + t.failures.foldl (fun n kind => n + kind.2) 0 = courses.length
  sorted : t.failures.Pairwise (·.1 < ·.1)
  kinds : ∀ kind, t.failures.lookup kind =
    if courses.countP (·.failure? = some kind) = 0 then none
    else some (courses.countP (·.failure? = some kind))

theorem tells_nil : Tally.Tells {} [] where
  successes := rfl
  total := rfl
  sorted := List.Pairwise.nil
  kinds _ := rfl

theorem tells_add (tells : t.Tells courses) (c : Course) :
    (t.add c.ending).Tells (courses ++ [c]) := by
  cases ended : c.failure? with
  | none =>
    rw [Course.ending, ended]
    constructor
    case successes => simp [Tally.add, tells.successes, ended]
    case total =>
      have total := tells.total
      simp only [Tally.add, List.length_append, List.length_singleton]
      omega
    case sorted => exact tells.sorted
    case kinds =>
      intro kind
      simp [Tally.add, tells.kinds kind, ended]
  | some kind =>
    rw [Course.ending, ended]
    constructor
    case successes => simp [Tally.add, tells.successes, ended]
    case total =>
      have total := tells.total
      simp only [Tally.add, total_bump, List.length_append, List.length_singleton]
      omega
    case sorted => exact sorted_bump tells.sorted
    case kinds =>
      intro k
      simp only [Tally.add]
      rw [lookup_bump tells.sorted, tells.kinds, tells.kinds]
      by_cases same : k = kind
      · subst same
        by_cases none : courses.countP (·.failure? = some k) = 0 <;> simp [ended, none]
      · simp [ended, same, Ne.symm same]

theorem tells_run (tells : t.Tells courses) (more : List Course) :
    ((more.map Course.ending).foldl Tally.add t).Tells (courses ++ more) := by
  induction more generalizing t courses with
  | nil => rwa [List.append_nil]
  | cons c rest ih =>
    rw [List.append_cons]
    exact ih (tells_add tells c)

theorem tally_eq (course : Nat → Nat → Course) :
    o.tally course = ((o.courses course).map Course.ending).foldl Tally.add {} := by
  rw [Options.courses, List.map_flatMap, List.foldl_flatMap, Options.tally]
  congr 1
  funext t worker
  have results : ((o.worker (course worker)).run []).1 =
      ((List.range o.iterations).map (course worker)).map Course.ending := by
    rw [List.map_map]
    exact congrArg Prod.fst run_worker
  rw [results]

theorem length_courses (course : Nat → Nat → Course) :
    (o.courses course).length = o.workers * o.iterations := by
  simp [Options.courses, List.length_flatMap]

theorem mem_courses {course : Nat → Nat → Course} :
    c ∈ o.courses course ↔
      ∃ worker < o.workers, ∃ iteration < o.iterations, course worker iteration = c := by
  simp [Options.courses]

theorem releases_worker (course : Nat → Course) :
    ((o.worker course).run log).2.filterMap Deed.release? =
      log.filterMap Deed.release? ++
        (List.range o.iterations).filterMap fun i => (course i).acquire.toOption := by
  rw [run_worker, List.filterMap_append, List.filterMap_flatMap]
  simp only [releases_deeds]
  rw [← List.filterMap_eq_flatMap_toList]

/-- A report accounts for every cycle: it is counted once, under the kind it failed with if it
failed, and whoever reads the exit code knows whether one did. Each connection that was lent is given
back once, whatever became of the exchange. -/
theorem report_accounts (o : Options) (address : String) (course : Nat → Nat → Course)
    (found : Finding) (json : Bool) :
    let r := o.report address course found
    r.successes + r.failed = o.workers * o.iterations ∧
      r.failures.Pairwise (·.1 < ·.1) ∧
      (∀ kind, r.failures.lookup kind =
        if (o.courses course).countP (·.failure? = some kind) = 0 then none
        else some ((o.courses course).countP (·.failure? = some kind))) ∧
      (r.failed = 0 ↔ ∀ worker < o.workers, ∀ iteration < o.iterations,
        (course worker iteration).failure? = none) ∧
      (Cli.finishProbe json r).code = (if r.failed = 0 then 0 else 1) ∧
      ∀ worker,
        ((o.worker (course worker)).run []).2.filterMap Deed.release? =
            ((List.range o.iterations).filterMap fun i => (course worker i).acquire.toOption) ∧
          ∀ iteration log,
            (((course worker iteration).cycle o.payload).run.run log).2.filterMap Deed.release? =
              log.filterMap Deed.release? ++ (course worker iteration).acquire.toOption.toList := by
  intro r
  have tells : (o.tally course).Tells (o.courses course) := by
    rw [tally_eq]
    exact tells_run tells_nil (o.courses course)
  have successes : r.successes = (o.courses course).countP (·.failure? = none) := tells.successes
  have total : r.successes + r.failed = (o.courses course).length := tells.total
  refine ⟨total.trans (length_courses course), tells.sorted, tells.kinds, ?_, ?_, fun worker => ?_⟩
  · have all : r.failed = 0 ↔ r.successes = (o.courses course).length := by omega
    rw [all, successes, List.countP_eq_length]
    simp only [decide_eq_true_eq, mem_courses]
    constructor
    · intro fine worker inCrew iteration inTime
      exact fine _ ⟨worker, inCrew, iteration, inTime, rfl⟩
    · rintro fine c ⟨worker, inCrew, iteration, inTime, rfl⟩
      exact fine worker inCrew iteration inTime
  · rw [Cli.finishProbe]
    split <;> rfl
  · refine ⟨releases_worker (course worker), fun iteration log => ?_⟩
    rw [run_cycle, List.filterMap_append, releases_deeds]

end LoanPool.Probe
