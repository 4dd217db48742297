import Mathlib.Data.List.Basic
import LoanPool.Toml.Value
import LoanPool.Toml.Reader

/-!
# The range of what is read

No integer is read that is past the greatest one, wherever it stands: among the values of an array,
in braces or under a key that headers and dots lead to. So what is read can be written.
-/
namespace LoanPool.Toml

variable {s rest : List Char} {key : String} {path : List String}

inductive Value.InRange : Value → Prop where
  | text (s : String) : InRange (.text s)
  | integer {n : Int} (small : n ≤ integerMax) : InRange (.integer n)
  | float : InRange .float
  | flag (b : Bool) : InRange (.flag b)
  | moment : InRange .moment
  | array {items : List Value} (all : ∀ v ∈ items, InRange v) : InRange (.array items)
  | table {o : Origin} {entries : Table} (all : ∀ e ∈ entries, InRange e.2) :
    InRange (.table o entries)
  | tables {members : List Value} (all : ∀ v ∈ members, InRange v) : InRange (.tables members)

def Table.InRange (t : Table) : Prop :=
  ∀ e ∈ t, e.2.InRange

variable {t t' : Table} {v : Value}

/-! ### Tables -/

theorem Table.InRange.lookup (inRange : t.InRange) (found : t.lookup key = some v) : v.InRange := by
  induction t with
  | nil => cases found
  | cons e t ih =>
    obtain ⟨here, more⟩ := List.forall_mem_cons.mp inRange
    rw [List.lookup_cons] at found
    split at found
    · cases found
      exact here
    · exact ih more found

theorem Table.InRange.append (inRange : t.InRange) (given : v.InRange) :
    Table.InRange (t ++ [(key, v)]) := by
  intro e member
  rcases List.mem_append.mp member with old | new
  · exact inRange e old
  · rw [List.mem_singleton.mp new]
    exact given

theorem Table.InRange.replace (inRange : t.InRange) (given : v.InRange) :
    (Table.replace t key v).InRange := by
  intro e member
  obtain ⟨old, there, rfl⟩ := List.mem_map.mp member
  split
  · exact given
  · exact inRange old there

theorem inRange_alter {dotted : Bool} {f : Origin → Table → Option Table} {o : Origin}
    (kept : ∀ o t t', t.InRange → f o t = some t' → Table.InRange t') (inRange : t.InRange)
    (altered : Table.alter dotted f path o t = some t') : t'.InRange := by
  induction path generalizing o t t' with
  | nil => exact kept o t t' inRange altered
  | cons key path ih =>
    rw [Table.alter] at altered
    split at altered
    · obtain ⟨inner, below, rfl⟩ := Option.map_eq_some_iff.mp altered
      have made := ih (t := []) (by simp [Table.InRange]) below
      exact inRange.append (.table made)
    · next o inner found =>
      cases inRange.lookup found with
      | table all =>
        split at altered
        · obtain ⟨inner', below, rfl⟩ := Option.map_eq_some_iff.mp altered
          exact inRange.replace (.table (ih all below))
        · cases altered
    · next members found =>
      cases inRange.lookup found with
      | tables all =>
        split at altered
        · next o inner latest =>
          obtain ⟨inner', below, rfl⟩ := Option.map_eq_some_iff.mp altered
          cases all _ (List.mem_of_getLast? latest) with
          | table within =>
            refine inRange.replace (.tables fun v member => ?_)
            rcases List.mem_append.mp member with old | new
            · exact all v ((List.dropLast_sublist members).subset old)
            · rw [List.mem_singleton.mp new]
              exact .table (ih within below)
        · cases altered
    · cases altered

theorem inRange_give {throughDots : Bool} {o : Origin} (given : v.InRange) (inRange : t.InRange)
    (gave : Table.give throughDots key v o t = some t') : t'.InRange := by
  simp only [Table.give] at gave
  split at gave
  · cases gave
  split at gave
  · cases gave
  · cases gave
    exact inRange.append given

theorem inRange_assign {header : List String} (given : v.InRange) (inRange : t.InRange)
    (assigned : Table.assign header path v t = some t') : t'.InRange := by
  simp only [Table.assign] at assigned
  split at assigned
  · cases assigned
  · refine inRange_alter (fun o t t' inRange altered => ?_) inRange assigned
    exact inRange_alter (fun o t t' inRange gave => inRange_give given inRange gave) inRange altered

theorem inRange_openTable (inRange : t.InRange) (opened : Table.openTable path t = some t') :
    t'.InRange := by
  simp only [Table.openTable] at opened
  split at opened
  · cases opened
  · refine inRange_alter (fun o t t' inRange change => ?_) inRange opened
    split at change
    · cases change
      exact inRange.append (.table (by simp))
    · next found =>
      cases change
      cases inRange.lookup found with
      | table all => exact inRange.replace (.table all)
    · cases change

theorem inRange_openMember (inRange : t.InRange) (opened : Table.openMember path t = some t') :
    t'.InRange := by
  have empty : Value.InRange (.table .header []) := .table (by simp)
  simp only [Table.openMember] at opened
  split at opened
  · cases opened
  · refine inRange_alter (fun o t t' inRange change => ?_) inRange opened
    split at change
    · cases change
      exact inRange.append (.tables (by simpa using empty))
    · next members found =>
      cases change
      cases inRange.lookup found with
      | tables all =>
        refine inRange.replace (.tables fun v member => ?_)
        rcases List.mem_append.mp member with old | new
        · exact all v old
        · rw [List.mem_singleton.mp new]
          exact empty
    · cases change

theorem inRange_ofPairs {pairs : List (List String × Value)}
    (given : ∀ pair ∈ pairs, pair.2.InRange)
    (built : Table.ofPairs pairs = some t) : t.InRange := by
  have kept : ∀ t t' : Table, t.InRange →
      pairs.foldlM (fun t pair => Table.assign [] pair.1 pair.2 t) t = some t' → t'.InRange := by
    clear built
    induction pairs with
    | nil =>
      intro t t' inRange built
      cases built
      exact inRange
    | cons pair pairs ih =>
      intro t t' inRange built
      obtain ⟨here, more⟩ := List.forall_mem_cons.mp given
      simp only [List.foldlM_cons, Option.bind_eq_bind, Option.bind_eq_some_iff] at built
      obtain ⟨between, assigned, rest⟩ := built
      exact ih more between t' (inRange_assign here inRange assigned) rest
  exact kept [] t (by simp [Table.InRange]) built

/-! ### Values -/

theorem inRange_ofRun? (told : ofRun? s = some v) : v.InRange := by
  simp only [ofRun?] at told
  split at told
  · cases told
    exact .flag true
  split at told
  · cases told
    exact .flag false
  split at told
  · next n read =>
    cases told
    obtain ⟨-, within⟩ := Option.filter_eq_some_iff.mp read
    exact .integer (by simpa using (of_decide_eq_true within).2)
  split at told
  · cases told
    exact .float
  split at told
  · cases told
    exact .moment
  · cases told

theorem inRange_scalar? (read : scalar? s = some (v, rest)) : v.InRange := by
  simp only [scalar?, Option.bind_eq_some_iff] at read
  obtain ⟨told, run, read⟩ := read
  have inRange := inRange_ofRun? run
  split at read
  · split at read
    · cases read
      exact inRange
    split at read
    · cases read
      exact inRange
    · cases read
  · cases read
    exact inRange

/-- What so many steps read: a value, the values of an array, and those of a table in braces. -/
structure Reads (n : Nat) : Prop where
  value : ∀ {depth s v rest}, value? n depth s = some (v, rest) → v.InRange
  elements : ∀ {depth s items rest}, elements? n depth s = some (items, rest) →
    ∀ v ∈ items, v.InRange
  pairs : ∀ {depth s pairs rest}, pairs? n depth s = some (pairs, rest) →
    ∀ pair ∈ pairs, pair.2.InRange

theorem Reads.value_succ {n depth : Nat} (before : Reads n)
    (read : value? (n + 1) depth s = some (v, rest)) : v.InRange := by
  rw [value?.eq_def] at read
  dsimp only at read
  split at read
  · split at read
    · cases read
    split at read
    · cases read
      exact .array (by simp)
    · obtain ⟨⟨items, left⟩, inner, same⟩ := Option.map_eq_some_iff.mp read
      cases same
      exact .array (before.elements inner)
  · split at read
    · cases read
    split at read
    · cases read
      exact .table (by simp)
    · obtain ⟨⟨pairs, left⟩, inner, built⟩ := Option.bind_eq_some_iff.mp read
      obtain ⟨t, ofPairs, same⟩ := Option.map_eq_some_iff.mp built
      cases same
      exact .table (inRange_ofPairs (before.pairs inner) ofPairs)
  · split at read
    · cases read
      exact .text _
    · exact inRange_scalar? read

theorem Reads.elements_succ {n depth : Nat} {items : List Value} (before : Reads n)
    (read : elements? (n + 1) depth s = some (items, rest)) : ∀ v ∈ items, v.InRange := by
  rw [elements?] at read
  split at read
  · cases read
  · next v left first =>
    have here := before.value first
    split at read
    · cases read
      simpa using here
    · split at read
      · cases read
        simpa using here
      · obtain ⟨⟨more, left⟩, inner, same⟩ := Option.map_eq_some_iff.mp read
        cases same
        exact List.forall_mem_cons.mpr ⟨here, before.elements inner⟩
    · cases read

theorem Reads.pairs_succ {n depth : Nat} {pairs : List (List String × Value)} (before : Reads n)
    (read : pairs? (n + 1) depth s = some (pairs, rest)) : ∀ pair ∈ pairs, pair.2.InRange := by
  rw [pairs?] at read
  split at read
  · cases read
  split at read
  · cases read
  · next v left first =>
    have here := before.value first
    split at read
    · cases read
      simpa using here
    · obtain ⟨⟨more, left⟩, inner, same⟩ := Option.map_eq_some_iff.mp read
      cases same
      exact List.forall_mem_cons.mpr ⟨here, before.pairs inner⟩
    · cases read

theorem reads (n : Nat) : Reads n := by
  induction n with
  | zero =>
    refine ⟨fun read => ?_, fun read => ?_, fun read => ?_⟩
    · rw [value?] at read
      cases read
    · rw [elements?] at read
      cases read
    · rw [pairs?] at read
      cases read
  | succ n ih => exact ⟨ih.value_succ, ih.elements_succ, ih.pairs_succ⟩

/-! ### Texts -/

def Statement.InRange : Statement → Prop
  | .entry _ v => v.InRange
  | _ => True

theorem inRange_statement? {statement : Statement} (read : statement? s = some (statement, rest)) :
    statement.InRange := by
  unfold statement? at read
  split at read
  · split at read
    · obtain ⟨left, -, same⟩ := Option.map_eq_some_iff.mp read
      cases same
      trivial
    · cases read
  · split at read
    · obtain ⟨left, -, same⟩ := Option.map_eq_some_iff.mp read
      cases same
      trivial
    · cases read
  · split at read
    · cases read
    · obtain ⟨⟨v, left⟩, value, ended⟩ := Option.bind_eq_some_iff.mp read
      obtain ⟨left, -, same⟩ := Option.map_eq_some_iff.mp ended
      cases same
      exact (reads _).value value

theorem inRange_statements? {n : Nat} {statements : List Statement}
    (read : statements? n s = some statements) : ∀ st ∈ statements, st.InRange := by
  induction n generalizing s statements with
  | zero => cases read
  | succ n ih =>
    rw [statements?] at read
    split at read
    · cases read
      simp
    split at read
    · obtain ⟨left, -, more⟩ := Option.bind_eq_some_iff.mp read
      exact ih more
    · obtain ⟨⟨st, left⟩, first, more⟩ := Option.bind_eq_some_iff.mp read
      obtain ⟨others, later, same⟩ := Option.map_eq_some_iff.mp more
      cases same
      exact List.forall_mem_cons.mpr ⟨inRange_statement? first, ih later⟩

theorem inRange_extend {header : List String} {statements : List Statement}
    (given : ∀ st ∈ statements, st.InRange) (inRange : t.InRange)
    (built : Table.extend header t statements = some t') : t'.InRange := by
  induction statements generalizing header t with
  | nil =>
    cases built
    exact inRange
  | cons st statements ih =>
    obtain ⟨here, more⟩ := List.forall_mem_cons.mp given
    cases st with
    | header path =>
      obtain ⟨between, opened, later⟩ := Option.bind_eq_some_iff.mp built
      exact ih more (inRange_openTable inRange opened) later
    | member path =>
      obtain ⟨between, opened, later⟩ := Option.bind_eq_some_iff.mp built
      exact ih more (inRange_openMember inRange opened) later
    | entry path v =>
      obtain ⟨between, assigned, later⟩ := Option.bind_eq_some_iff.mp built
      exact ih more (inRange_assign here inRange assigned) later

/-- Whatever a text says, its integers are in range. -/
theorem inRange_read? {text : String} (read : read? text = some t) : t.InRange := by
  simp only [read?, Option.bind_eq_some_iff] at read
  obtain ⟨statements, told, built⟩ := read
  exact inRange_extend (inRange_statements? told) (by simp [Table.InRange]) built

/-! ### Fields -/

theorem Value.InRange.fields {fields : Fields} {place : Nat} {name : String} {field : Value}
    (inRange : v.InRange) (record : v.fields? = some fields)
    (found : fields place name = some field) : field.InRange := by
  cases inRange with
  | array all =>
    cases record
    exact all field (List.mem_of_getElem? found)
  | table all =>
    cases record
    exact Table.InRange.lookup all found
  | tables all =>
    cases record
    exact all field (List.mem_of_getElem? found)
  | moment =>
    cases record
    cases found
  | _ => cases record

theorem Value.InRange.count {n : Nat} (inRange : v.InRange) (counted : v.count? = some n) :
    n ≤ integerMax := by
  cases inRange with
  | integer small =>
    simp only [Value.count?] at counted
    split at counted
    · cases counted
      omega
    · cases counted
  | _ => cases counted

end LoanPool.Toml
