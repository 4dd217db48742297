import Mathlib.Data.List.Basic
import LoanPool.Proofs.Toml.Quoted
import LoanPool.Toml.Reader
import LoanPool.Toml.Table

/-!
# Lines read back

A table of plain values that is written one key a line is read as the statements that give these
keys these values, and these statements build the table again, at the top of a text or under a
header. It takes keys that stand without quotes, and each of them once.
-/
namespace LoanPool.Toml

variable {s text rest name : List Char} {n depth : Nat} {v : Value}

/-! ### Numbers -/

theorem ungroup?_of_digits {isDigit : Char → Bool} (due : Bool)
    (digits : ∀ c ∈ s, isDigit c = true) (given : due = true → s ≠ []) :
    ungroup? isDigit due s = some s := by
  induction s generalizing due with
  | nil =>
    cases due with
    | false => rfl
    | true => exact absurd rfl (given rfl)
  | cons c s ih =>
    obtain ⟨digit, more⟩ := List.forall_mem_cons.mp digits
    simp [ungroup?, digit, ih false more]

theorem isDigit_toDigits (n : Nat) : ∀ c ∈ Nat.toDigits 10 n, c.isDigit = true :=
  fun _ member => Nat.isDigit_of_mem_toDigits (by decide) (by decide) member

theorem eq_zero_of_digitChar : ∀ n < 10, Nat.digitChar n = '0' → n = 0 := by
  decide

/-- Only zero is written with a zero in front. -/
theorem eq_zero_of_head_toDigits (zero : (Nat.toDigits 10 n).head? = some '0') : n = 0 := by
  induction n using Nat.strongRecOn with
  | ind n ih =>
    by_cases small : n < 10
    · rw [Nat.toDigits_of_lt_base small] at zero
      exact eq_zero_of_digitChar n small (by simpa using zero)
    · have parts := Nat.toDigits_eq_if (b := 10) (n := n) (by decide)
      rw [if_neg small] at parts
      rw [parts, List.head?_append_of_ne_nil _ Nat.toDigits_ne_nil] at zero
      have front := ih (n / 10) (by omega) zero
      omega

theorem decimal?_toDigits (n : Nat) : decimal? (Nat.toDigits 10 n) = some n := by
  have digits : ungroup? Char.isDigit true (Nat.toDigits 10 n) = some (Nat.toDigits 10 n) :=
    ungroup?_of_digits true (isDigit_toDigits n) fun _ => Nat.toDigits_ne_nil
  have unpadded : ¬((Nat.toDigits 10 n).head? = some '0' ∧ (Nat.toDigits 10 n).length ≠ 1) := by
    rintro ⟨zero, long⟩
    rw [eq_zero_of_head_toDigits zero] at long
    exact long rfl
  simp only [decimal?, digits, if_neg unpadded, Nat.ofDigitChars_ten_toDigits]

/-- Digits alone are neither signed nor in another base. -/
theorem wholeNumber?_of_digits (digits : ∀ c ∈ s, c.isDigit = true) :
    wholeNumber? s = (decimal? s).map Int.ofNat := by
  have unsigned : takeSign s = (false, s) := by
    unfold takeSign
    split
    · exact absurd (digits '+' List.mem_cons_self) (by decide)
    · exact absurd (digits '-' List.mem_cons_self) (by decide)
    · rfl
  unfold wholeNumber?
  split
  · exact absurd (digits 'x' (by simp)) (by decide)
  · exact absurd (digits 'o' (by simp)) (by decide)
  · exact absurd (digits 'b' (by simp)) (by decide)
  · simp only [unsigned]
    cases decimal? s <;> rfl

theorem integer?_toDigits (small : n ≤ integerMax) :
    integer? (Nat.toDigits 10 n) = some (n : Int) := by
  have whole := wholeNumber?_of_digits (isDigit_toDigits n)
  rw [decimal?_toDigits] at whole
  have low : -(integerMax : Int) - 1 ≤ n := by omega
  have high : (n : Int) ≤ integerMax := by omega
  simp [integer?, whole, Option.filter, low, high]

/-! ### Values -/

/-- A run that ends with its line is read by itself. -/
theorem scalar?_run (run : ∀ c ∈ s, isRun c = true) (told : ofRun? s = some v) :
    scalar? (s ++ '\n' :: rest) = some (v, '\n' :: rest) := by
  have taken : (s ++ '\n' :: rest).takeWhile isRun = s := by
    rw [List.takeWhile_append_of_pos run]
    simp [isRun]
  have left : (s ++ '\n' :: rest).dropWhile isRun = '\n' :: rest := by
    rw [List.dropWhile_append_of_pos run]
    simp [isRun]
  simp [scalar?, taken, left, told]

/-- The first character tells what kind of value this is. -/
theorem value?_plain (array : s.head? ≠ some '[') (inline : s.head? ≠ some '\x7b') :
    value? (n + 1) depth s =
      match Quoted.read? s with
      | some (text, rest) => some (.text (String.ofList text), rest)
      | none => scalar? s := by
  unfold value?
  split
  · exact absurd rfl array
  · exact absurd rfl inline
  · rfl

theorem read?_unquoted (double : s.head? ≠ some '\x22') (single : s.head? ≠ some '\x27') :
    Quoted.read? s = none := by
  have first := Quoted.not_isPrefixOf_of_apart double
  have second := Quoted.not_isPrefixOf_of_apart single
  simp [Quoted.read?, Quoted.opening?, Quoted.double, Quoted.single, Quoted.tripleDouble,
    Quoted.tripleSingle, List.replicate, first, second]

/-- A run begins with a letter, a digit or a sign, and no value with a mark around it does. -/
theorem value?_run (run : ∀ c ∈ s, isRun c = true) (given : s ≠ []) (told : ofRun? s = some v) :
    value? (n + 1) depth (s ++ '\n' :: rest) = some (v, '\n' :: rest) := by
  have apart : ∀ mark, isRun mark = false → (s ++ '\n' :: rest).head? ≠ some mark := by
    intro mark other same
    rw [List.head?_append_of_ne_nil _ given] at same
    rw [run mark (List.mem_of_head? same)] at other
    cases other
  rw [value?_plain (apart _ rfl) (apart _ rfl), read?_unquoted (apart _ rfl) (apart _ rfl)]
  exact scalar?_run run told

theorem head_write (s tail : List Char) :
    (Quoted.write s ++ tail).head? = some '\x22' ∨
      (Quoted.write s ++ tail).head? = some '\x27' := by
  have suits := Quoted.suits_styleFor s
  rw [Quoted.write]
  generalize Quoted.styleFor s = st at suits
  cases suits with
  | double => exact .inl rfl
  | tripleDouble => exact .inl rfl
  | single => exact .inr rfl
  | tripleSingle => exact .inr rfl

theorem isRun_of_isDigit {c : Char} (digit : c.isDigit = true) : isRun c = true := by
  simp [isRun, Char.isAlphanum, digit]

theorem ofRun?_toDigits (small : n ≤ integerMax) :
    ofRun? (Nat.toDigits 10 n) = some (.integer n) := by
  have digits := isDigit_toDigits n
  have not_true : Nat.toDigits 10 n ≠ ['t', 'r', 'u', 'e'] := by
    intro same
    rw [same] at digits
    exact absurd (digits 't' (by simp)) (by decide)
  have not_false : Nat.toDigits 10 n ≠ ['f', 'a', 'l', 's', 'e'] := by
    intro same
    rw [same] at digits
    exact absurd (digits 'f' (by simp)) (by decide)
  simp [ofRun?, not_true, not_false, integer?_toDigits small]

/-- A value is written as a text in quotes, or as a run that tells it. -/
theorem marked_or_run (written : v.write? = some s) :
    (∃ text, v = .text text ∧ s = Quoted.write text.toList) ∨
      s ≠ [] ∧ (∀ c ∈ s, isRun c = true) ∧ ofRun? s = some v := by
  cases v with
  | text text =>
    cases written
    exact .inl ⟨text, rfl, rfl⟩
  | integer k =>
    simp only [Value.write?] at written
    split at written
    · next range =>
      cases written
      obtain ⟨m, rfl⟩ := Int.eq_ofNat_of_zero_le range.1
      exact .inr ⟨Nat.toDigits_ne_nil,
        fun c member => isRun_of_isDigit (isDigit_toDigits _ c member),
        ofRun?_toDigits (by simpa using range.2)⟩
    · cases written
  | flag b =>
    cases written
    cases b <;> exact .inr ⟨by decide, List.all_eq_true.mp (by decide), rfl⟩
  | _ => cases written

/-- Whatever value is written is read back, up to the end of its line. -/
theorem value?_write (written : v.write? = some s) :
    value? (n + 1) depth (s ++ '\n' :: rest) = some (v, '\n' :: rest) := by
  obtain ⟨text, rfl, rfl⟩ | ⟨given, run, told⟩ := marked_or_run written
  · have marked := head_write text.toList ('\n' :: rest)
    rw [value?_plain (by intro same; simp [same] at marked) (by intro same; simp [same] at marked),
      Quoted.read?_write text.toList (by simp) (by simp)]
    simp
  · exact value?_run run given told

/-! ### Lines -/

def IsBareKey (key : String) : Prop :=
  key.toList ≠ [] ∧ ∀ c ∈ key.toList, isBare c = true

variable {key : String} {c mark : Char} {tail : List Char}

instance (key : String) : Decidable (IsBareKey key) :=
  decidable_of_iff (key.toList ≠ [] ∧ key.toList.all isBare = true)
    (by rw [IsBareKey, List.all_eq_true])

/-- What a bare key begins with is not among the signs that mean something else. -/
theorem IsBareKey.head?_ne (bare : IsBareKey key) (rest : List Char)
    (other : isBare mark = false) :
    (key.toList ++ rest).head? ≠ some mark := by
  intro same
  rw [List.head?_append_of_ne_nil _ bare.1] at same
  rw [bare.2 mark (List.mem_of_head? same)] at other
  cases other

theorem skipBlanks_of_head? (space : s.head? ≠ some ' ') (tab : s.head? ≠ some '\t') :
    skipBlanks s = s := by
  cases s with
  | nil => rfl
  | cons c s =>
    simp only [List.head?_cons, ne_eq, Option.some.injEq] at space tab
    simp [skipBlanks, isBlank, space, tab]

theorem IsBareKey.unskipped (bare : IsBareKey key) :
    skipBlanks (key.toList ++ rest) = key.toList ++ rest :=
  skipBlanks_of_head? (bare.head?_ne rest rfl) (bare.head?_ne rest rfl)

/-- A bare key ends where something stands that cannot be in one. -/
theorem key?_bare (bare : IsBareKey key) (other : isBare mark = false) :
    key? (key.toList ++ mark :: rest) = some (key, mark :: rest) := by
  have unquoted : Quoted.readLine? (key.toList ++ mark :: rest) = none := by
    have first := bare.head?_ne (mark :: rest) (show isBare '\x22' = false from rfl)
    have second := bare.head?_ne (mark :: rest) (show isBare '\x27' = false from rfl)
    unfold Quoted.readLine?
    split
    · next same => exact absurd (congrArg List.head? same) first
    · next same => exact absurd (congrArg List.head? same) second
    · rfl
  have taken : (key.toList ++ mark :: rest).takeWhile isBare = key.toList := by
    rw [List.takeWhile_append_of_pos bare.2]
    simp [other]
  have left : (key.toList ++ mark :: rest).dropWhile isBare = mark :: rest := by
    rw [List.dropWhile_append_of_pos bare.2]
    simp [other]
  simp [key?, unquoted, taken, left, bare.1]

theorem path?_bare (bare : IsBareKey key) (ends : isBare c = false)
    (left : skipBlanks (c :: tail) = mark :: rest) (undotted : mark ≠ '.') :
    path? (n + 1) (key.toList ++ c :: tail) = some ([key], mark :: rest) := by
  simp only [path?, bare.unskipped, key?_bare bare ends, left]
  split
  · next same => exact absurd (List.cons.inj same).1 undotted
  · rfl

/-- A single key is read up to the mark behind it and behind the blanks there. -/
theorem pathUpTo?_bare (bare : IsBareKey key) (ends : isBare c = false)
    (left : skipBlanks (c :: tail) = mark :: rest) (undotted : mark ≠ '.') :
    pathUpTo? mark (key.toList ++ c :: tail) = some ([key], rest) := by
  have path := path?_bare (n := depthLimit - 2) bare ends left undotted
  rw [pathUpTo?, show depthLimit - 1 = depthLimit - 2 + 1 from rfl, path]
  simp

theorem lineEnd?_break (rest : List Char) : lineEnd? ('\n' :: rest) = some rest := by
  simp [lineEnd?, skipBlanks, isBlank, lineBreak?]

/-- No value is written with a blank in front. -/
theorem skipBlanks_write (written : v.write? = some s) : skipBlanks (s ++ rest) = s ++ rest := by
  have unblank : ∀ mark, mark = ' ' ∨ mark = '\t' → (s ++ rest).head? ≠ some mark := by
    intro mark blank same
    obtain ⟨text, -, rfl⟩ | ⟨given, run, -⟩ := marked_or_run written
    · have marked := head_write text.toList rest
      rcases blank with rfl | rfl <;> simp [same] at marked
    · rw [List.head?_append_of_ne_nil _ given] at same
      have told := run mark (List.mem_of_head? same)
      rcases blank with rfl | rfl <;> cases told
  exact skipBlanks_of_head? (unblank _ (.inl rfl)) (unblank _ (.inr rfl))

theorem statement?_line (bare : IsBareKey key) (written : v.write? = some s)
    (rest : List Char) :
    statement? (key.toList ++ [' ', '=', ' '] ++ s ++ '\n' :: rest) =
      some (.entry [key] v, rest) := by
  have path : pathUpTo? '=' (key.toList ++ ' ' :: '=' :: ' ' :: (s ++ '\n' :: rest)) =
      some ([key], ' ' :: (s ++ '\n' :: rest)) :=
    pathUpTo?_bare bare rfl (by simp [skipBlanks, isBlank]) (by decide)
  have passed : skipBlanks (' ' :: (s ++ '\n' :: rest)) = s ++ '\n' :: rest :=
    skipBlanks_write written
  have closed := bare.head?_ne (' ' :: '=' :: ' ' :: (s ++ '\n' :: rest))
    (show isBare '[' = false from rfl)
  simp only [List.append_assoc, List.cons_append, List.nil_append]
  unfold statement?
  split
  · next same => exact absurd (congrArg List.head? same) closed
  · next same => exact absurd (congrArg List.head? same) closed
  · simp [path, passed, value?_write written, lineEnd?_break]

theorem statement?_header (bare : IsBareKey key) (rest : List Char) :
    statement? ('[' :: key.toList ++ ']' :: '\n' :: rest) = some (.header [key], rest) := by
  have path : pathUpTo? ']' (key.toList ++ ']' :: '\n' :: rest) = some ([key], '\n' :: rest) :=
    pathUpTo?_bare bare rfl (by simp [skipBlanks, isBlank]) (by decide)
  have single := bare.head?_ne (']' :: '\n' :: rest) (show isBare '[' = false from rfl)
  rw [List.cons_append]
  unfold statement?
  split
  · next same => exact absurd (congrArg List.head? (List.cons.inj same).2) single
  · next same =>
    cases same
    simp [path, lineEnd?_break]
  · next other => exact absurd rfl (other _)

/-! ### Texts -/

theorem statements?_nil (n : Nat) : statements? (n + 1) [] = some [] :=
  rfl

theorem statements?_break (n : Nat) : statements? (n + 1) ('\n' :: rest) = statements? n rest := by
  simp [statements?, skipBlanks, isBlank, lineEnd?_break]

theorem statements?_header (n : Nat) (bare : IsBareKey key) (rest : List Char) :
    statements? (n + 1) ('[' :: key.toList ++ ']' :: '\n' :: rest) =
      (statements? n rest).map (.header [key] :: ·) := by
  have told := statement?_header bare rest
  rw [List.cons_append] at told ⊢
  simp [statements?, skipBlanks, isBlank, told]

theorem statements?_line (n : Nat) (bare : IsBareKey key) (written : v.write? = some s)
    (rest : List Char) :
    statements? (n + 1) (key.toList ++ [' ', '=', ' '] ++ s ++ '\n' :: rest) =
      (statements? n rest).map (.entry [key] v :: ·) := by
  have told := statement?_line bare written rest
  simp only [List.append_assoc] at told ⊢
  rw [statements?, bare.unskipped]
  cases parts : key.toList with
  | nil => exact absurd parts bare.1
  | cons c name =>
    have starts : c ≠ '\n' ∧ c ≠ '\r' ∧ c ≠ '#' := by
      have letter : isBare c = true := bare.2 c (by simp [parts])
      refine ⟨?_, ?_, ?_⟩ <;>
      · rintro rfl
        cases letter
    rw [parts] at told
    simp only [List.cons_append, List.nil_append] at told ⊢
    simp [starts, told]

def Table.statements (t : Table) : List Statement :=
  t.map fun e => .entry [e.1] e.2

theorem statements?_write {t : Table} (n : Nat) (bare : ∀ e ∈ t, IsBareKey e.1)
    (written : t.write? = some s) (rest : List Char) :
    statements? (t.length + n) (s ++ rest) = (statements? n rest).map (t.statements ++ ·) := by
  induction t generalizing s with
  | nil =>
    cases written
    simp [Table.statements]
  | cons e t ih =>
    obtain ⟨here, more⟩ := List.forall_mem_cons.mp bare
    simp only [Table.write?, Option.bind_eq_bind, Option.bind_eq_some_iff] at written
    obtain ⟨text, given, lines, later, whole⟩ := written
    cases whole
    have front := statements?_line (t.length + n) here given (lines ++ rest)
    rw [ih more later] at front
    rw [List.length_cons, Nat.add_right_comm, List.append_assoc, List.cons_append, front]
    simp [Table.statements, Option.map_map, Function.comp_def]

/-! ### Tables -/

theorem lookup_eq_none {t : Table} (fresh : key ∉ t.map Prod.fst) : t.lookup key = none := by
  rw [List.lookup_eq_none_iff]
  intro e member
  have other : key ≠ e.1 := by
    rintro rfl
    exact fresh (List.mem_map_of_mem member)
  simpa using other

theorem give_fresh {t : Table} (fresh : key ∉ t.map Prod.fst) (v : Value) (o : Origin) :
    Table.give false key v o t = some (t ++ [(key, v)]) := by
  simp [Table.give, lookup_eq_none fresh]

theorem assign_top {t : Table} (fresh : key ∉ t.map Prod.fst) (v : Value) :
    Table.assign [] [key] v t = some (t ++ [(key, v)]) := by
  simp [Table.assign, Table.alter, give_fresh fresh]

theorem lookup_append_self {t : Table} (fresh : key ∉ t.map Prod.fst) (v : Value) :
    (t ++ [(key, v)]).lookup key = some v := by
  simp [List.lookup_append, lookup_eq_none fresh]

theorem replace_append_self {t : Table} (fresh : key ∉ t.map Prod.fst) (v v' : Value) :
    Table.replace (t ++ [(key, v)]) key v' = t ++ [(key, v')] := by
  have kept : Table.replace t key v' = t := by
    refine (List.map_congr_left fun e member => ?_).trans (List.map_id t)
    have other : e.1 ≠ key := by
      rintro rfl
      exact fresh (List.mem_map_of_mem member)
    simp [other]
  simpa [Table.replace] using kept

/-- A header that is new opens a table at the end, and keys are given there then. -/
theorem openTable_fresh {t : Table} (fresh : key ∉ t.map Prod.fst) :
    Table.openTable [key] t = some (t ++ [(key, .table .header [])]) := by
  simp [Table.openTable, Table.alter, lookup_eq_none fresh]

theorem assign_under {front inner : Table} {heading : String}
    (last : heading ∉ front.map Prod.fst) (fresh : key ∉ inner.map Prod.fst) (v : Value) :
    Table.assign [heading] [key] v (front ++ [(heading, .table .header inner)]) =
      some (front ++ [(heading, .table .header (inner ++ [(key, v)]))]) := by
  simp [Table.assign, Table.alter, lookup_append_self last, Origin.permits, give_fresh fresh,
    replace_append_self last]

theorem fresh_of_nodup {t more : Table} {e : String × Value}
    (distinct : ((t ++ e :: more).map Prod.fst).Nodup) :
    e.1 ∉ t.map Prod.fst ∧ ((t ++ [e] ++ more).map Prod.fst).Nodup := by
  refine ⟨?_, by simpa using distinct⟩
  rw [List.map_append, List.map_cons, List.nodup_append] at distinct
  intro member
  exact distinct.2.2 _ member _ List.mem_cons_self rfl

variable {es : Table} {more : List Statement}

theorem extend_top (t es : Table) (distinct : ((t ++ es).map Prod.fst).Nodup) :
    Table.extend [] t es.statements = some (t ++ es) := by
  induction es generalizing t with
  | nil => simp [Table.statements, Table.extend]
  | cons e es ih =>
    obtain ⟨fresh, still⟩ := fresh_of_nodup distinct
    have rest := ih (t ++ [e]) still
    simp only [Table.statements, List.map_cons, Table.extend, assign_top fresh, Option.bind_some]
      at rest ⊢
    simpa using rest

theorem extend_under {front : Table} {heading : String} (last : heading ∉ front.map Prod.fst)
    (inner : Table) (distinct : ((inner ++ es).map Prod.fst).Nodup) :
    Table.extend [heading] (front ++ [(heading, .table .header inner)]) (es.statements ++ more) =
      Table.extend [heading] (front ++ [(heading, .table .header (inner ++ es))]) more := by
  induction es generalizing inner with
  | nil => simp [Table.statements]
  | cons e es ih =>
    obtain ⟨fresh, still⟩ := fresh_of_nodup distinct
    have rest := ih (inner ++ [e]) still
    simp only [Table.statements, List.map_cons, List.cons_append, Table.extend,
      assign_under last fresh, Option.bind_some] at rest ⊢
    simpa using rest

/-- A section: its header and the lines under it. -/
theorem extend_section {front : Table} {heading : String} (last : heading ∉ front.map Prod.fst)
    (distinct : (es.map Prod.fst).Nodup) (header : List String) :
    Table.extend header front (.header [heading] :: (es.statements ++ more)) =
      Table.extend [heading] (front ++ [(heading, .table .header es)]) more := by
  rw [Table.extend, openTable_fresh last, Option.bind_some]
  exact extend_under last [] distinct

/-! ### Whole texts -/

theorem length_le_length_write {t : Table} (written : t.write? = some s) : t.length ≤ s.length := by
  induction t generalizing s with
  | nil => exact Nat.zero_le _
  | cons e t ih =>
    simp only [Table.write?, Option.bind_eq_bind, Option.bind_eq_some_iff] at written
    obtain ⟨text, -, lines, later, whole⟩ := written
    cases whole
    have rest := ih later
    simp only [List.length_cons, List.length_append]
    omega

def Table.Plain (t : Table) : Prop :=
  (∀ key ∈ t.map Prod.fst, IsBareKey key) ∧ (t.map Prod.fst).Nodup

instance (t : Table) : Decidable t.Plain :=
  inferInstanceAs (Decidable (_ ∧ _))

variable {t u : Table} {first second : String} {w : List Char}

theorem Table.Plain.bare (plain : t.Plain) : ∀ e ∈ t, IsBareKey e.1 :=
  fun _ member => plain.1 _ (List.mem_map_of_mem member)

theorem statements?_section (n : Nat) (bare : IsBareKey key) (plain : t.Plain)
    (written : writeSection? key t = some s) (rest : List Char) :
    statements? (t.length + n + 1) (s ++ rest) =
      (statements? n rest).map fun more => .header [key] :: (t.statements ++ more) := by
  obtain ⟨lines, given, rfl⟩ := Option.map_eq_some_iff.mp written
  have below := statements?_write n plain.bare given rest
  have whole := statements?_header (t.length + n) bare (lines ++ rest)
  rw [below] at whole
  simpa [Option.map_map, Function.comp_def] using whole

theorem length_lt_length_writeSection (written : writeSection? key t = some s) :
    t.length < s.length := by
  obtain ⟨lines, given, rfl⟩ := Option.map_eq_some_iff.mp written
  have short := length_le_length_write given
  simp only [List.length_append, List.length_cons]
  omega

theorem skipMark_of_head? (unmarked : s.head? ≠ some '\uFEFF') : skipMark s = s := by
  unfold skipMark
  split
  · exact absurd rfl unmarked
  · rfl

/-- A table that is written is read back. -/
theorem read?_write (plain : t.Plain) (written : t.write? = some s) :
    read? (String.ofList s) = some t := by
  have unmarked : skipMark s = s := by
    refine skipMark_of_head? ?_
    cases t with
    | nil =>
      cases written
      simp
    | cons e t =>
      simp only [Table.write?, Option.bind_eq_bind, Option.bind_eq_some_iff] at written
      obtain ⟨text, -, lines, -, whole⟩ := written
      cases whole
      rw [List.append_assoc, List.append_assoc]
      exact (plain.bare e List.mem_cons_self).head?_ne _ rfl
  have short := length_le_length_write written
  have enough : s.length + 1 = t.length + (s.length - t.length + 1) := by omega
  have told := statements?_write (s.length - t.length + 1) plain.bare written []
  rw [List.append_nil, statements?_nil, ← enough] at told
  simp only [read?, String.toList_ofList, unmarked, told, Option.map_some, Option.bind_some,
    List.append_nil, Table.ofStatements]
  simpa using extend_top [] t (by simpa using plain.2)

/-- Two sections with an empty line between them are read back as two tables. -/
theorem read?_sections (bare : IsBareKey first ∧ IsBareKey second) (apart : first ≠ second)
    (plain : t.Plain ∧ u.Plain) (written : writeSection? first t = some s)
    (behind : writeSection? second u = some w) :
    read? (String.ofList (s ++ '\n' :: w)) =
      some [(first, .table .header t), (second, .table .header u)] := by
  have unmarked : skipMark (s ++ '\n' :: w) = s ++ '\n' :: w := by
    obtain ⟨lines, -, rfl⟩ := Option.map_eq_some_iff.mp written
    exact skipMark_of_head? (by simp)
  have short := length_lt_length_writeSection written
  have later := length_lt_length_writeSection behind
  obtain ⟨spare, enough⟩ : ∃ spare, (s ++ '\n' :: w).length + 1 =
      t.length + (u.length + (spare + 1) + 1 + 1) + 1 := by
    refine ⟨s.length + w.length - t.length - u.length - 2, ?_⟩
    simp only [List.length_append, List.length_cons]
    omega
  have below := statements?_section (spare + 1) bare.2 plain.2 behind []
  have above := statements?_section (u.length + (spare + 1) + 1 + 1) bare.1 plain.1 written
    ('\n' :: w)
  rw [List.append_nil, statements?_nil] at below
  rw [statements?_break, below, ← enough] at above
  simp only [read?, String.toList_ofList, unmarked, above, Option.map_some, Option.bind_some,
    List.append_nil, Table.ofStatements]
  rw [extend_section (by simp) plain.1.2, ← List.append_nil u.statements,
    extend_section (by simpa using Ne.symm apart) plain.2.2]
  rfl

end LoanPool.Toml
