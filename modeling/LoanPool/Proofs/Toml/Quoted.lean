import LoanPool.Toml.Quoted

/-!
# Texts read back

A text that is written in quotes is read back as it was, whichever form it is written in, and
reading stops where it ends. The forms with escapes hold every text. The forms without hold those
that they are chosen for.

Between triple marks a mark may be part of the text. What decides is how many marks stand in a row,
so for each form it is shown that three never do before the end.
-/
namespace LoanPool.Toml.Quoted

variable {st : Style} {m c h : Char} {s w text rest tail t : List Char} {n k : Nat}

/-! ### Steps of reading -/

theorem body?_emit {mode next : Mode} (moved : move st mode c rest = .emit text next) :
    body? st mode (c :: rest) =
      (body? st next rest).map fun (more, rest) => (text ++ more, rest) := by
  rw [body?, moved]

def Style.Keeps (st : Style) (c : Char) : Prop :=
  ¬(c = '\\' ∧ st.escapes = true) ∧ (isControl c = false ∨ c = '\n' ∧ st.triple = true)

theorem body?_keep (keeps : st.Keeps c) (going : ending? st (c :: rest) = none) :
    body? st .plain (c :: rest) =
      (body? st .plain rest).map fun (more, rest) => (c :: more, rest) := by
  obtain ⟨unescaped, plainly⟩ := keeps
  suffices move st .plain c rest = .emit [c] .plain from body?_emit this
  simp only [move, plain, going, unescaped, if_false]
  by_cases broken : c = '\n' ∧ st.triple = true
  · rw [if_pos broken, broken.1]
  · have printed : isControl c = false := plainly.resolve_right broken
    have unreturned : c ≠ '\r' := by
      rintro rfl
      cases printed
    simp [broken, unreturned, printed]

/-! ### Ends -/

theorem ending?_other (other : c ≠ st.mark) (rest : List Char) :
    ending? st (c :: rest) = none := by
  cases triple : st.triple <;> simp [ending?, triple, Ne.symm other]

/-- Fewer than three marks are no end. -/
theorem ending?_few (few : k ≤ 2) (other : h ≠ m) :
    ending? ⟨m, true⟩ (List.replicate k m ++ h :: t) = none := by
  have apart : m ≠ h := Ne.symm other
  match k, few with
  | 0, _ => simp [ending?, apart]
  | 1, _ => simp [ending?, List.replicate, apart]
  | 2, _ => simp [ending?, List.replicate, apart]

theorem not_isPrefixOf_of_apart (apart : tail.head? ≠ some m) (more : List Char) :
    (m :: more).isPrefixOf tail = false := by
  cases tail with
  | nil => rfl
  | cons first rest =>
    have other : m ≠ first := by
      rintro rfl
      exact apart rfl
    simp [List.isPrefixOf, other]

/-- Of more than three marks the last three are the end. -/
theorem ending?_close (few : k ≤ 2) (apart : tail.head? ≠ some m) :
    ending? ⟨m, true⟩ (List.replicate k m ++ m :: m :: m :: tail) =
      some (List.replicate k m, tail) := by
  have unmarked := not_isPrefixOf_of_apart apart
  match k, few with
  | 0, _ => simp [ending?, List.isPrefixOf, unmarked]
  | 1, _ => simp [ending?, List.isPrefixOf, List.replicate, unmarked]
  | 2, _ => simp [ending?, List.isPrefixOf, List.replicate]

/-- A text and its written form, which is over after a few marks, or goes on with something else
after them. -/
def Parted (m : Char) (room : Nat) (s w : List Char) : Prop :=
  ∃ k, k ≤ room ∧
    (s = List.replicate k m ∧ w = List.replicate k m ∨
      ∃ h t, h ≠ m ∧ w = List.replicate k m ++ h :: t)

theorem body?_end (apart : tail.head? ≠ some m) :
    body? ⟨m, true⟩ .plain (m :: m :: m :: tail) = some ([], tail) := by
  have ends := ending?_close (k := 0) (Nat.zero_le 2) apart
  simp only [List.replicate_zero, List.nil_append] at ends
  rw [body?, move, plain, ends]

/-- A mark that is text is read as text: it is taken together with the end, or there is more behind
it. -/
theorem body?_mark (keeps : Style.Keeps ⟨m, true⟩ m) (apart : tail.head? ≠ some m)
    (parted : Parted m 2 (m :: s) (m :: w))
    (behind : body? ⟨m, true⟩ .plain (w ++ m :: m :: m :: tail) = some (s, tail)) :
    body? ⟨m, true⟩ .plain (m :: w ++ m :: m :: m :: tail) = some (m :: s, tail) := by
  obtain ⟨k, few, ⟨all, written⟩ | ⟨h, t, other, written⟩⟩ := parted
  · have ends := ending?_close few apart
    rw [← written] at ends
    rw [List.cons_append] at ends ⊢
    rw [body?, move, plain, ends, written, all]
  · have going := ending?_few (t := t ++ m :: m :: m :: tail) few other
    rw [← List.cons_append, ← List.append_assoc, ← written] at going
    rw [List.cons_append] at going ⊢
    rw [body?_keep keeps going, behind]
    rfl

/-! ### With escapes -/

theorem hexDigit?_hexDigit : ∀ n < 16, hexDigit? (hexDigit n) = some n := by
  decide

theorem toNat_of_isControl (control : isControl c = true) : c.toNat < 128 := by
  simp only [isControl, Bool.or_eq_true, Bool.and_eq_true, decide_eq_true_eq, beq_iff_eq] at control
  omega

/-- A character that is written by its number is read back. -/
theorem body?_code (escapes : st.escapes = true) (small : c.toNat < 128) :
    body? st .plain
        ('\\' :: 'u' :: '0' :: '0' :: hexDigit (c.toNat / 16) :: hexDigit (c.toNat % 16) :: rest) =
      (body? st .plain rest).map fun (more, rest) => (c :: more, rest) := by
  have mark : st.mark = '\x22' := by simpa [Style.escapes] using escapes
  have high := hexDigit?_hexDigit (c.toNat / 16) (by omega)
  have low := hexDigit?_hexDigit (c.toNat % 16) (by omega)
  have whole : c.toNat / 16 * 16 + c.toNat % 16 = c.toNat := by omega
  have begun : ∀ more, move st .plain '\\' more = .emit [] .escaped := by
    intro more
    simp only [move, plain, ending?_other (show '\\' ≠ st.mark by simp [mark]) more, escapes]
    simp
  have coded : ∀ more, move st .escaped 'u' more = .emit [] (.code 4 0) := fun _ => rfl
  have zero : ∀ left more, 1 < left →
      move st (.code left 0) '0' more = .emit [] (.code (left - 1) 0) := by
    intro left more more_left
    simp [move, show hexDigit? '0' = some 0 from rfl, more_left]
  have first : ∀ more, move st (.code 2 0) (hexDigit (c.toNat / 16)) more =
      .emit [] (.code 1 (c.toNat / 16)) := by
    intro more
    simp [move, high]
  have last : ∀ more, move st (.code 1 (c.toNat / 16)) (hexDigit (c.toNat % 16)) more =
      .emit [c] .plain := by
    intro more
    simp [move, low, whole, Char.ofNat_toNat, show c.toNat.isValidChar from c.valid]
  rw [body?_emit (begun _), body?_emit (coded _), body?_emit (zero 4 _ (by decide)),
    body?_emit (zero 3 _ (by decide)), body?_emit (first _), body?_emit (last _)]
  simp [Option.map_map, Function.comp_def]

theorem keeps_of_printed (printed : isControl c = false) (unescaped : c ≠ '\\') : st.Keeps c :=
  ⟨fun escape => unescaped escape.1, .inl printed⟩

/-- A letter after a backslash is read as what it stands for. -/
theorem body?_letter (escapes : st.escapes = true) {letter : Char}
    (stands : unescape? letter = some c) :
    body? st .plain ('\\' :: letter :: rest) =
      (body? st .plain rest).map fun (more, rest) => (c :: more, rest) := by
  have mark : st.mark = '\x22' := by simpa [Style.escapes] using escapes
  have begun : move st .plain '\\' (letter :: rest) = .emit [] .escaped := by
    simp only [move, plain,
      ending?_other (show '\\' ≠ st.mark by simp [mark]) (letter :: rest), escapes]
    simp
  have read : move st .escaped letter rest = .emit [c] .plain := by
    simp only [move, stands]
  rw [body?_emit begun, body?_emit read]
  simp [Option.map_map, Function.comp_def]

/-- What is written for a character other than the mark is read back as that character. -/
theorem body?_escape (escapes : st.escapes = true) (other : c ≠ '\x22') :
    body? st .plain (escape st.triple c ++ rest) =
      (body? st .plain rest).map fun (more, rest) => (c :: more, rest) := by
  have mark : st.mark = '\x22' := by simpa [Style.escapes] using escapes
  have going : ending? st (c :: rest) = none := ending?_other (by rwa [mark]) rest
  simp only [escape]
  split
  · next tab =>
    subst tab
    exact body?_letter escapes rfl
  split
  · next broken =>
    subst broken
    split
    · next triple => exact body?_keep ⟨by simp, .inr ⟨rfl, triple⟩⟩ going
    · exact body?_letter escapes rfl
  split
  · next backslash =>
    subst backslash
    exact body?_letter escapes rfl
  split
  · next backspace =>
    subst backspace
    exact body?_letter escapes rfl
  split
  · next feed =>
    subst feed
    exact body?_letter escapes rfl
  split
  · next returned =>
    subst returned
    exact body?_letter escapes rfl
  split
  · next control => exact body?_code escapes (toNat_of_isControl control)
  · next backslash _ _ _ printed =>
    exact body?_keep (keeps_of_printed (by simpa using printed) backslash) going

/-- What is written for a character other than the mark begins neither with the mark nor with half a
line break, nor with a line break unless it is one. -/
theorem escape_eq_cons (triple : Bool) (other : c ≠ '\x22') :
    ∃ h t, escape triple c = h :: t ∧ h ≠ '\x22' ∧ h ≠ '\r' ∧ (c ≠ '\n' → h ≠ '\n') := by
  have escaped : ∀ t, ∃ h t', '\\' :: t = h :: t' ∧ h ≠ '\x22' ∧ h ≠ '\r' ∧ (c ≠ '\n' → h ≠ '\n') :=
    fun t => ⟨'\\', t, rfl, by decide, by decide, fun _ => by decide⟩
  simp only [escape]
  split
  · exact escaped _
  split
  · next broken =>
    split
    · exact ⟨'\n', [], rfl, by decide, by decide, fun unbroken => absurd broken unbroken⟩
    · exact escaped _
  split
  · exact escaped _
  split
  · exact escaped _
  split
  · exact escaped _
  split
  · exact escaped _
  split
  · exact escaped _
  · next returned _ => exact ⟨c, [], rfl, other, returned, id⟩

/-- On one line every mark in the text is escaped, so the first one that is not is the end. -/
theorem body?_encode_line (s tail : List Char) (n : Nat) :
    body? double .plain (encode false n s ++ '\x22' :: tail) = some (s, tail) := by
  induction s generalizing n with
  | nil => rfl
  | cons c s ih =>
    simp only [encode]
    by_cases mark : c = '\x22'
    · subst mark
      have read :
          body? double .plain ('\\' :: '\x22' :: (encode false 0 s ++ '\x22' :: tail)) = _ :=
        body?_letter rfl rfl
      rw [ih] at read
      simpa using read
    · have read :
          body? double .plain (escape false c ++ (encode false 0 s ++ '\x22' :: tail)) = _ :=
        body?_escape rfl mark
      rw [ih] at read
      rw [if_neg mark, List.append_assoc]
      exact read

/-- Behind so many marks there is room for those that are left of two. -/
theorem parted_encode (s : List Char) (few : n ≤ 2) :
    Parted '\x22' (2 - n) s (encode true n s) := by
  induction s generalizing n with
  | nil => exact ⟨0, Nat.zero_le _, .inl ⟨rfl, rfl⟩⟩
  | cons c s ih =>
    by_cases mark : c = '\x22'
    · subst mark
      by_cases room : n < 2
      · obtain ⟨k, within, parts⟩ := ih (n := n + 1) room
        refine ⟨k + 1, by omega, ?_⟩
        simp only [encode, if_true, room, and_self, List.replicate_succ]
        rcases parts with ⟨all, written⟩ | ⟨h, t, other, written⟩
        · exact .inl ⟨by rw [all], by rw [written]⟩
        · exact .inr ⟨h, t, other, by rw [written, List.cons_append]⟩
      · refine ⟨0, Nat.zero_le _, .inr ⟨'\\', '\x22' :: encode true 0 s, by decide, ?_⟩⟩
        simp [encode, room]
    · obtain ⟨h, t, written, other, -⟩ := escape_eq_cons true mark
      refine ⟨0, Nat.zero_le _, .inr ⟨h, t ++ encode true 0 s, other, ?_⟩⟩
      simp [encode, mark, written]

theorem Parted.of_room {room : Nat} (parted : Parted m room s w) (wider : room ≤ n) :
    Parted m n s w := by
  obtain ⟨k, within, parts⟩ := parted
  exact ⟨k, Nat.le_trans within wider, parts⟩

theorem body?_encode_triple (apart : tail.head? ≠ some '\x22') (s : List Char) (few : n ≤ 2) :
    body? tripleDouble .plain (encode true n s ++ '\x22' :: '\x22' :: '\x22' :: tail) =
      some (s, tail) := by
  induction s generalizing n with
  | nil => exact body?_end apart
  | cons c s ih =>
    by_cases mark : c = '\x22'
    · subst mark
      by_cases room : n < 2
      · have parted := (parted_encode ('\x22' :: s) few).of_room (n := 2) (Nat.sub_le 2 n)
        have written : encode true n ('\x22' :: s) = '\x22' :: encode true (n + 1) s := by
          simp [encode, room]
        rw [written] at parted ⊢
        exact body?_mark ⟨by decide, .inl rfl⟩ apart parted (ih room)
      · have read : body? tripleDouble .plain
            ('\\' :: '\x22' :: (encode true 0 s ++ '\x22' :: '\x22' :: '\x22' :: tail)) = _ :=
          body?_letter rfl rfl
        rw [ih (Nat.zero_le 2)] at read
        simpa [encode, room] using read
    · have read : body? tripleDouble .plain
          (escape true c ++ (encode true 0 s ++ '\x22' :: '\x22' :: '\x22' :: tail)) = _ :=
        body?_escape rfl mark
      rw [ih (Nat.zero_le 2)] at read
      simp only [encode, mark, if_false, List.append_assoc]
      exact read

/-! ### Without escapes -/

/-- Without escapes a line holds what has no mark and no control character in it. -/
theorem body?_raw_line (tail : List Char) (plainly : ∀ c ∈ s, isControl c = false ∧ c ≠ '\x27') :
    body? single .plain (s ++ '\x27' :: tail) = some (s, tail) := by
  induction s with
  | nil => rfl
  | cons c s ih =>
    obtain ⟨⟨printed, other⟩, more⟩ := List.forall_mem_cons.mp plainly
    have keeps : single.Keeps c := ⟨by simp [Style.escapes, single], .inl printed⟩
    rw [List.cons_append, body?_keep keeps (ending?_other other _), ih more]
    rfl

/-- A text begins with some marks, and is over then or goes on with something else. -/
theorem exists_run (m : Char) (s : List Char) :
    ∃ k, s = List.replicate k m ∨ ∃ h t, h ≠ m ∧ s = List.replicate k m ++ h :: t := by
  induction s with
  | nil => exact ⟨0, .inl rfl⟩
  | cons c s ih =>
    by_cases mark : c = m
    · obtain ⟨k, all | ⟨h, t, other, written⟩⟩ := ih
      · exact ⟨k + 1, .inl (by rw [mark, all, List.replicate_succ])⟩
      · exact ⟨k + 1, .inr ⟨h, t, other, by rw [mark, written]; rfl⟩⟩
    · exact ⟨0, .inr ⟨c, s, mark, rfl⟩⟩

theorem few_of_unbroken (unbroken : hasTriple m (List.replicate k m ++ t) = false) : k ≤ 2 := by
  match k with
  | 0 | 1 | 2 => decide
  | k + 3 => simp [List.replicate_succ, hasTriple] at unbroken

theorem parted_raw (unbroken : hasTriple m s = false) : Parted m 2 s s := by
  obtain ⟨k, all | ⟨h, t, other, written⟩⟩ := exists_run m s
  · have few : k ≤ 2 := few_of_unbroken (t := []) (by rwa [List.append_nil, ← all])
    exact ⟨k, few, .inl ⟨all, all⟩⟩
  · have few : k ≤ 2 := few_of_unbroken (by rwa [← written])
    exact ⟨k, few, .inr ⟨h, t, other, written⟩⟩

theorem body?_raw_triple (apart : tail.head? ≠ some '\x27')
    (plainly : ∀ c ∈ s, isControl c = false ∨ c = '\n') (unbroken : hasTriple '\x27' s = false) :
    body? tripleSingle .plain (s ++ '\x27' :: '\x27' :: '\x27' :: tail) = some (s, tail) := by
  induction s with
  | nil => exact body?_end apart
  | cons c s ih =>
    obtain ⟨printed, more⟩ := List.forall_mem_cons.mp plainly
    have parted := parted_raw unbroken
    simp only [hasTriple, Bool.or_eq_false_iff] at unbroken
    have behind := ih more unbroken.2
    have keeps : tripleSingle.Keeps c :=
      ⟨by simp [Style.escapes, tripleSingle], printed.imp_right fun broken => ⟨broken, rfl⟩⟩
    by_cases mark : c = '\x27'
    · subst mark
      exact body?_mark keeps apart parted behind
    · rw [List.cons_append, body?_keep keeps (ending?_other mark _), behind]
      rfl

/-! ### The form a text is written in -/

inductive Suits (s : List Char) : Style → Prop where
  | double : Suits s double
  | tripleDouble : Suits s tripleDouble
  | single (plainly : ∀ c ∈ s, isControl c = false ∧ c ≠ '\x27') : Suits s single
  | tripleSingle (plainly : ∀ c ∈ s, isControl c = false ∨ c = '\n')
      (unbroken : hasTriple '\x27' s = false) : Suits s tripleSingle

/-- Nothing but line breaks among the control characters. -/
theorem printed_of_uncontrolled
    (uncontrolled : s.any (fun c => isControl c && c != '\n') = false) :
    ∀ c ∈ s, isControl c = false ∨ c = '\n' := by
  intro c member
  have here := List.any_eq_false.mp uncontrolled c member
  by_cases broken : c = '\n'
  · exact .inr broken
  · exact .inl (by simpa [broken] using here)

theorem suits_styleFor (s : List Char) : Suits s (styleFor s) := by
  simp only [styleFor]
  split
  · exact .double
  split
  · next _ holds =>
    simp only [Bool.and_eq_true, Bool.not_eq_true'] at holds
    obtain ⟨⟨uncontrolled, unbroken⟩, unmarked⟩ := holds
    refine .single fun c member => ⟨?_, ?_⟩
    · refine (printed_of_uncontrolled uncontrolled c member).resolve_right ?_
      rintro rfl
      simp [member] at unbroken
    · rintro rfl
      simp [member] at unmarked
  split
  · exact .tripleDouble
  split
  · next _ _ _ holds =>
    simp only [Bool.and_eq_true, Bool.not_eq_true'] at holds
    exact .tripleSingle (printed_of_uncontrolled holds.1) holds.2
  split
  · exact .tripleDouble
  · exact .double

/-! ### The marks around a text -/

theorem opening?_line {st : Style} (line : st = double ∨ st = single)
    (short : ∀ rest, s = st.mark :: rest → rest.head? ≠ some st.mark) :
    opening? (st.mark :: s) = some (st, s) := by
  have untripled : [st.mark, st.mark].isPrefixOf s = false := by
    cases s with
    | nil => rfl
    | cons c rest =>
      by_cases mark : c = st.mark
      · subst mark
        simp [List.isPrefixOf, not_isPrefixOf_of_apart (short rest rfl) []]
      · simp [List.isPrefixOf, Ne.symm mark]
  rcases line with rfl | rfl <;>
    simp_all [opening?, double, single, tripleDouble, tripleSingle, List.replicate,
      List.isPrefixOf]

/-- A line break that was put in front of the text is passed over, and nothing else is. -/
theorem opening?_triple {st : Style} (triple : st = tripleDouble ∨ st = tripleSingle)
    (kept : '\n' ∉ s → skipBreak w = w) :
    opening? (st.mark :: st.mark :: st.mark :: ((if '\n' ∈ s then ['\n'] else []) ++ w)) =
      some (st, w) := by
  have skipped : skipBreak ((if '\n' ∈ s then ['\n'] else []) ++ w) = w := by
    by_cases broken : '\n' ∈ s
    · rw [if_pos broken]
      rfl
    · rw [if_neg broken]
      exact kept broken
  rcases triple with rfl | rfl <;>
    simp [opening?, tripleDouble, tripleSingle, List.replicate, List.isPrefixOf, skipped]

theorem skipBreak_cons (unbroken : h ≠ '\n') (unreturned : h ≠ '\r') :
    skipBreak (h :: t) = h :: t := by
  unfold skipBreak
  split
  · next same => exact absurd (List.cons.inj same).1 unbroken
  · next same => exact absurd (List.cons.inj same).1 unreturned
  · rfl

theorem skipBreak_encode (rest : List Char) (unbroken : '\n' ∉ s) :
    skipBreak (encode true 0 s ++ '\x22' :: rest) = encode true 0 s ++ '\x22' :: rest := by
  cases s with
  | nil => exact skipBreak_cons (by decide) (by decide)
  | cons c s =>
    by_cases mark : c = '\x22'
    · subst mark
      exact skipBreak_cons (by decide) (by decide)
    · obtain ⟨h, t, written, -, unreturned, whole⟩ := escape_eq_cons true mark
      have begun : h ≠ '\n' := whole fun broken => unbroken (broken ▸ List.mem_cons_self)
      simp only [encode, mark, if_false, written, List.cons_append]
      exact skipBreak_cons begun unreturned

theorem skipBreak_raw (rest : List Char) (plainly : ∀ c ∈ s, isControl c = false ∨ c = '\n')
    (unbroken : '\n' ∉ s) :
    skipBreak (s ++ '\x27' :: rest) = s ++ '\x27' :: rest := by
  cases s with
  | nil => exact skipBreak_cons (by decide) (by decide)
  | cons c s =>
    have begun : c ≠ '\n' := fun broken => unbroken (broken ▸ List.mem_cons_self)
    have printed := (plainly c List.mem_cons_self).resolve_right begun
    refine skipBreak_cons begun ?_
    rintro rfl
    cases printed

/-! ### Reading what was written -/

theorem head_encode_line (apart : tail.head? ≠ some '\x22') :
    ∀ rest, encode false 0 s ++ '\x22' :: tail = '\x22' :: rest → rest.head? ≠ some '\x22' := by
  intro rest begins
  cases s with
  | nil =>
    cases begins
    exact apart
  | cons c s =>
    by_cases mark : c = '\x22'
    · subst mark
      cases begins
    · obtain ⟨h, t, written, other, -⟩ := escape_eq_cons false mark
      simp only [encode, mark, if_false, written, List.cons_append] at begins
      exact absurd (List.cons.inj begins).1 other

/-- A text between triple marks, with what follows it. -/
theorem writeIn_triple {st : Style} (triple : st.triple = true) (s tail : List Char) :
    writeIn st s ++ tail = st.mark :: st.mark :: st.mark :: ((if '\n' ∈ s then ['\n'] else []) ++
      ((if st.escapes then encode true 0 s else s) ++ st.mark :: st.mark :: st.mark :: tail)) := by
  simp [writeIn, triple, List.replicate]

/-- Whatever text is written is read back, and what follows it is left, unless that begins with a
mark itself. -/
theorem read?_write (s : List Char) (double : tail.head? ≠ some '\x22')
    (single : tail.head? ≠ some '\x27') : read? (write s ++ tail) = some (s, tail) := by
  have suits := suits_styleFor s
  rw [write]
  generalize styleFor s = st at suits
  cases suits with
  | double =>
    have opened := opening?_line (.inl rfl) (head_encode_line (s := s) double)
    have read := body?_encode_line s tail 0
    simp only [Quoted.double] at opened read
    simp [read?, writeIn, Quoted.double, Style.escapes, opened, read]
  | single plainly =>
    have opened : opening? ('\x27' :: (s ++ '\x27' :: tail)) =
        some (Quoted.single, s ++ '\x27' :: tail) := by
      refine opening?_line (.inr rfl) fun rest begins => ?_
      cases s with
      | nil =>
        cases begins
        exact single
      | cons c s => exact absurd (List.cons.inj begins).1 (plainly c List.mem_cons_self).2
    have read := body?_raw_line tail plainly
    simp only [Quoted.single] at opened read
    simp [read?, writeIn, Quoted.single, Style.escapes, opened, read]
  | tripleDouble =>
    have opened := opening?_triple (.inl rfl) fun unbroken =>
      skipBreak_encode (s := s) ('\x22' :: '\x22' :: tail) unbroken
    rw [writeIn_triple rfl, read?]
    exact (congrArg (Option.bind · _) opened).trans
      (body?_encode_triple double s (Nat.zero_le 2))
  | tripleSingle plainly unbroken =>
    have opened := opening?_triple (.inr rfl) fun unbroken =>
      skipBreak_raw ('\x27' :: '\x27' :: tail) plainly unbroken
    rw [writeIn_triple rfl, read?]
    exact (congrArg (Option.bind · _) opened).trans (body?_raw_triple single plainly unbroken)

end LoanPool.Toml.Quoted
