import LoanPool.Cli.Run
import LoanPool.Proofs.Toml.Lines
import LoanPool.Proofs.Toml.Range

/-!
# Settings that are written and read again

Settings that are valid are written as a text from which the same settings are read, if their
numbers can be written at all, and otherwise not at all. No settings are read that could not be
written, so what the program prints of a file it accepts is a file that it accepts, and says the
same.
-/
namespace LoanPool
open Toml (Fields Table Value integerMax)

def Config.Writable (c : Config) : Prop :=
  c.maxConnections ≤ integerMax ∧ (∀ limit, c.maxPending = some limit → limit ≤ integerMax) ∧
    c.acquireTimeoutMs ≤ integerMax

def Endpoint.Writable (e : Endpoint) : Prop :=
  e.connectTimeoutMs ≤ integerMax ∧ e.recvTimeoutMs ≤ integerMax

def Settings.Writable (s : Settings) : Prop :=
  s.endpoint.Writable ∧ s.pool.Writable

/-! ### Writing -/

namespace Toml

theorem isSome_write?_iff (t : Table) :
    (Table.write? t).isSome = true ↔ ∀ e ∈ t, e.2.write?.isSome = true := by
  induction t with
  | nil => simp [Table.write?]
  | cons e t ih =>
    rw [List.forall_mem_cons, ← ih]
    cases here : e.2.write? with
    | none => simp [Table.write?, here]
    | some text => cases more : Table.write? t <;> simp [Table.write?, here, more]

theorem isSome_writeSection? (name : String) (t : Table) :
    (writeSection? name t).isSome = (Table.write? t).isSome :=
  Option.isSome_map

theorem isSome_write?_integer (n : Nat) :
    (Value.write? (.integer n)).isSome = true ↔ n ≤ integerMax := by
  by_cases small : n ≤ integerMax
  · simp [Value.write?, small]
  · simp [Value.write?, small]

theorem isSome_write?_text (s : String) : (Value.write? (.text s)).isSome = true :=
  rfl

theorem isSome_write?_flag (b : Bool) : (Value.write? (.flag b)).isSome = true :=
  rfl

end Toml

open Toml (isSome_write?_iff isSome_write?_integer isSome_write?_text isSome_write?_flag)

theorem Config.isSome_write?_iff (c : Config) :
    (Table.write? c.toTable).isSome = true ↔ c.Writable := by
  cases limit : c.maxPending <;>
    simp [Toml.isSome_write?_iff, toTable, Writable, limit, isSome_write?_integer,
      isSome_write?_text, isSome_write?_flag]

theorem Endpoint.isSome_write?_iff (e : Endpoint) :
    (Table.write? e.toTable).isSome = true ↔ e.Writable := by
  simp [Toml.isSome_write?_iff, toTable, Writable, isSome_write?_integer, isSome_write?_text,
    isSome_write?_flag]

/-! ### Reading -/

theorem Config.plain_toTable (c : Config) : Toml.Table.Plain c.toTable := by
  cases limit : c.maxPending <;>
  · simp only [Toml.Table.Plain, toTable, limit, List.map_append, List.map_cons, List.map_nil]
    decide

theorem Endpoint.plain_toTable (e : Endpoint) : Toml.Table.Plain e.toTable := by
  simp only [Toml.Table.Plain, toTable, List.map_cons, List.map_nil]
  decide

theorem Config.ofValue?_toTable (c : Config) : ofValue? (.table .header c.toTable) = some c := by
  obtain ⟨maxConnections, maxPending, acquireTimeoutMs, timeoutAction, checkOnRelease, lifo,
    overflow⟩ := c
  cases maxPending <;>
    simp [ofValue?, Value.fields?, ofFields?, toTable, Fields.getD?, List.lookup_cons,
      List.lookup_nil, Value.count?, Value.flag?, Value.choice?, TimeoutAction.ofText?_text,
      OverflowPolicy.ofText?_text]

theorem Endpoint.ofValue?_toTable (e : Endpoint) :
    ofValue? (.table .header e.toTable) = some e := by
  simp [ofValue?, Value.fields?, ofFields?, toTable, Fields.getD?, Fields.get?, List.lookup_cons,
    List.lookup_nil, Value.count?, Value.flag?, Value.text?]

theorem Config.ofToml_eq_ok {text : String} {t : Table} {c : Config}
    (read : Toml.read? text = some t) (told : ofValue? (.table .header t) = some c)
    (valid : c.validate = .ok ()) : ofToml text = .ok c := by
  simp [ofToml, read, told, valid]

/-- Settings that are read are those that a table tells, and they are valid. -/
theorem Settings.ofToml_eq_ok_iff {text : String} {s : Settings} :
    ofToml text = .ok s ↔
      ∃ t, Toml.read? text = some t ∧ ofTable? t = some s ∧ s.validate = .ok () := by
  constructor
  · intro accepted
    cases read : Toml.read? text with
    | none => simp [ofToml, read] at accepted
    | some t =>
      cases told : ofTable? t with
      | none => simp [ofToml, read, told] at accepted
      | some s' =>
        cases valid : s'.validate with
        | error fault => simp [ofToml, read, told, valid] at accepted
        | ok =>
          simp only [ofToml, read, told, valid] at accepted
          cases accepted
          exact ⟨t, rfl, told, valid⟩
  · rintro ⟨t, read, told, valid⟩
    simp [ofToml, read, told, valid]

/-! ### There and back -/

theorem Config.toToml?_eq_none {c : Config} (large : ¬c.Writable) : c.toToml? = none := by
  rw [← c.isSome_write?_iff] at large
  simpa [toToml?] using large

theorem Config.roundTrip {c : Config} (valid : c.validate = .ok ()) (small : c.Writable) :
    ∃ text, c.toToml? = some text ∧ ofToml text = .ok c := by
  obtain ⟨lines, written⟩ := Option.isSome_iff_exists.mp (c.isSome_write?_iff.mpr small)
  refine ⟨String.ofList lines, by simp [toToml?, written], ?_⟩
  exact ofToml_eq_ok (Toml.read?_write c.plain_toTable written) c.ofValue?_toTable valid

theorem Settings.toToml?_eq_none {s : Settings} (large : ¬s.Writable) : s.toToml? = none := by
  rw [Writable, not_and_or, ← s.endpoint.isSome_write?_iff, ← s.pool.isSome_write?_iff] at large
  simp only [Option.not_isSome_iff_eq_none] at large
  rcases large with endpoint | pool
  · simp [toToml?, Toml.writeSection?, endpoint]
  · simp [toToml?, Toml.writeSection?, pool]

theorem Settings.ofTable?_sections (s : Settings) :
    ofTable? [("endpoint", .table .header s.endpoint.toTable),
      ("pool", .table .header s.pool.toTable)] = some s := by
  simp [ofTable?, List.lookup_cons, Endpoint.ofValue?_toTable, Config.ofValue?_toTable]

theorem Settings.roundTrip {s : Settings} (valid : s.validate = .ok ()) (small : s.Writable) :
    ∃ text, s.toToml? = some text ∧ ofToml text = .ok s := by
  obtain ⟨above, endpoint⟩ :
      ∃ lines, Toml.writeSection? "endpoint" s.endpoint.toTable = some lines := by
    rw [← Option.isSome_iff_exists, Toml.isSome_writeSection?]
    exact s.endpoint.isSome_write?_iff.mpr small.1
  obtain ⟨below, pool⟩ : ∃ lines, Toml.writeSection? "pool" s.pool.toTable = some lines := by
    rw [← Option.isSome_iff_exists, Toml.isSome_writeSection?]
    exact s.pool.isSome_write?_iff.mpr small.2
  have read := Toml.read?_sections (by decide) (by decide)
    ⟨s.endpoint.plain_toTable, s.pool.plain_toTable⟩ endpoint pool
  refine ⟨_, ?_, ofToml_eq_ok_iff.mpr ⟨_, read, s.ofTable?_sections, valid⟩⟩
  simp only [toToml?, endpoint, pool]
  rfl

/-! ### What was read can be written -/

def Toml.Fields.InRange (fields : Fields) : Prop :=
  ∀ place name v, fields place name = some v → v.InRange

section Read

variable {fields : Fields} {place : Nat} {name : String} {v : Value}

/-- What is true of the default, and of all that can be read, is true of the field. -/
theorem Toml.Fields.InRange.getD {α : Type} {read? : Value → Option α} {default a : α}
    (P : α → Prop) (inRange : fields.InRange) (least : P default)
    (kept : ∀ v a, v.InRange → read? v = some a → P a)
    (read : fields.getD? place name read? default = some a) : P a := by
  unfold Fields.getD? at read
  split at read
  · next v found => exact kept v a (inRange place name v found) read
  · cases read
    exact least

theorem Toml.Fields.InRange.count {default n : Nat} (inRange : fields.InRange)
    (least : default ≤ integerMax)
    (read : fields.getD? place name Value.count? default = some n) : n ≤ integerMax :=
  inRange.getD (· ≤ integerMax) least (fun _ _ within counted => within.count counted) read

theorem Config.writable_of_ofValue? {c : Config} (inRange : v.InRange)
    (read : ofValue? v = some c) : c.Writable := by
  obtain ⟨fields, record, told⟩ := Option.bind_eq_some_iff.mp read
  have within : fields.InRange := fun place name v found => inRange.fields record found
  simp only [ofFields?, Option.bind_eq_bind, Option.bind_eq_some_iff] at told
  obtain ⟨maxConnections, connections, maxPending, pending, timeout, deadline, _, -, _, -, _, -,
    _, -, same⟩ := told
  cases same
  have bounded : ∀ limit, maxPending = some limit → limit ≤ integerMax := by
    refine within.getD (fun a => ∀ limit, a = some limit → limit ≤ integerMax) (by simp)
      (fun v a there counted limit given => ?_) pending
    obtain ⟨n, count, rfl⟩ := Option.map_eq_some_iff.mp counted
    cases given
    exact there.count count
  exact ⟨within.count (by decide) connections, bounded, within.count (by decide) deadline⟩

theorem Endpoint.writable_of_ofValue? {e : Endpoint} (inRange : v.InRange)
    (read : ofValue? v = some e) : e.Writable := by
  obtain ⟨fields, record, told⟩ := Option.bind_eq_some_iff.mp read
  have within : fields.InRange := fun place name v found => inRange.fields record found
  simp only [ofFields?, Option.bind_eq_bind, Option.bind_eq_some_iff] at told
  obtain ⟨address, -, connectTimeout, connect, recvTimeout, recv, _, -, same⟩ := told
  cases same
  exact ⟨within.count (by decide) connect, within.count (by decide) recv⟩

theorem Config.writable_default : Config.Writable {} :=
  ⟨by decide, by simp, by decide⟩

theorem Settings.writable_of_ofTable? {t : Table} {s : Settings} (inRange : t.InRange)
    (read : ofTable? t = some s) : s.Writable := by
  simp only [ofTable?, Option.bind_eq_bind, Option.bind_eq_some_iff] at read
  obtain ⟨endpoint, ⟨v, found, told⟩, rest⟩ := read
  have reached := Endpoint.writable_of_ofValue? (inRange.lookup found) told
  split at rest
  · next v found =>
    obtain ⟨pool, given, same⟩ := Option.bind_eq_some_iff.mp rest
    cases same
    exact ⟨reached, Config.writable_of_ofValue? (inRange.lookup found) given⟩
  · cases rest
    exact ⟨reached, Config.writable_default⟩

/-- Settings that are read are valid, and can be written. -/
theorem Settings.writable_of_ofToml {text : String} {s : Settings}
    (accepted : ofToml text = .ok s) : s.validate = .ok () ∧ s.Writable := by
  obtain ⟨t, read, told, valid⟩ := ofToml_eq_ok_iff.mp accepted
  exact ⟨valid, writable_of_ofTable? (Toml.inRange_read? read) told⟩

end Read

/-! ### The check of a file -/

theorem Settings.ofFile_eq_ok_iff {content : Except String String} {s : Settings} :
    ofFile content = .ok s ↔ ∃ text, content = .ok text ∧ ofToml text = .ok s := by
  cases content with
  | error reason => simp [ofFile]
  | ok text =>
    cases accepted : ofToml text <;> simp [ofFile, accepted, Except.mapError]

/-- What is printed of a file that is accepted is accepted again, as the same settings. -/
theorem Cli.check_again {probe : Settings → Probe.Options → Except ConfigFault Probe.Report}
    {json : Bool} {file : String} {content : Except String String} {s : Settings}
    (accepted : Settings.ofFile content = .ok s) :
    ∃ text, grant content probe (.run json (.check file)) = { out := text } ∧
      Settings.ofFile (.ok text) = .ok s := by
  obtain ⟨original, rfl, read⟩ := Settings.ofFile_eq_ok_iff.mp accepted
  obtain ⟨valid, small⟩ := Settings.writable_of_ofToml read
  obtain ⟨text, written, again⟩ := Settings.roundTrip valid small
  refine ⟨text, ?_, Settings.ofFile_eq_ok_iff.mpr ⟨text, rfl, again⟩⟩
  simp [grant, accepted, check, written]

/-- Configurations and settings that are valid are written as a text that is read back as they
were, unless a number is past the greatest one, and then they are not written at all; and the
program prints of each file that it accepts a text that it accepts as the same settings. -/
theorem settings_roundTrip :
    (∀ c : Config, c.validate = .ok () → c.Writable →
      ∃ text, c.toToml? = some text ∧ Config.ofToml text = .ok c) ∧
    (∀ s : Settings, s.validate = .ok () → s.Writable →
      ∃ text, s.toToml? = some text ∧ Settings.ofToml text = .ok s) ∧
    (∀ c : Config, ¬c.Writable → c.toToml? = none) ∧
    (∀ s : Settings, ¬s.Writable → s.toToml? = none) ∧
    ∀ probe json file content s, Settings.ofFile content = .ok s →
      ∃ text, Cli.grant content probe (.run json (.check file)) = { out := text } ∧
        Settings.ofFile (.ok text) = .ok s :=
  ⟨fun _ => Config.roundTrip, fun _ => Settings.roundTrip, fun _ => Config.toToml?_eq_none,
    fun _ => Settings.toToml?_eq_none, fun _ _ _ _ _ => Cli.check_again⟩

/-- An address with both marks, a backslash, a control character and two lines. -/
theorem settings_roundTrip_marks :
    let s : Settings :=
      { endpoint := { address := "\x22\x22\x22\\\x07\n\x27\x27\x27" }
        pool := { maxPending := some 3 } }
    s.validate = .ok () ∧ s.Writable ∧
      ∃ text, s.toToml? = some text ∧ Settings.ofToml text = .ok s := by
  intro s
  have valid : s.validate = .ok () := by decide
  have small : s.Writable := ⟨⟨by decide, by decide⟩, by decide, by simp [s]; decide, by decide⟩
  exact ⟨valid, small, settings_roundTrip.2.1 s valid small⟩

end LoanPool
