import Lox.Proofs.Entries
import Lox.Proofs.Listing
import Lox.Proofs.Logging
import Lox.Proofs.Unquoting

/-!
# The log of a scan can be read back

An event is written on a line of its own. Such a line has one of four forms, which differ before
the fields, and each field ends where the next one or the line does: a number behind its digits, a
name behind its capitals, and a lexeme at its closing quotation mark, whatever is between the marks.
The log of a scan ends with the only event of its kind, so that more lines may stand behind it.

## Main definitions

* `Event.line`: the line of an event
* `Form`, `forms`: the forms that a line can have
* `readEntry`, `readLog`: the entry of a line, and the entries of a log with the lines behind it

## Main results

* `readFields_fieldsText`: the fields of a form are read back
* `readEntry_line`: so is the line of an event
* `readLog_events`: so is the log of a scan, whatever is behind it
-/

namespace Lox

open Text (unquote quote)

/-! ## Forms of lines -/

/-- How the value of a field is written. -/
inductive Shape
  | count
  /-- Capitals and underscores. -/
  | name
  | quoted
  /-- All that is left of the line. -/
  | sentence
  deriving DecidableEq

/-- The form of a line: what stands before the fields, and the names and shapes of the fields. -/
structure Form where
  level : Level
  message : String
  fields : List (String × Shape)
  deriving DecidableEq

namespace Form

def started : Form := ⟨.debug, "scanning source", [("bytes", .count)]⟩

def token : Form :=
  ⟨.trace, "token", [("kind", .name), ("lexeme", .quoted), ("line", .count)]⟩

def fault : Form := ⟨.debug, "scan error", [("line", .count), ("error", .sentence)]⟩

def finished : Form :=
  ⟨.debug, "scan finished", [("tokens", .count), ("errors", .count), ("lines", .count)]⟩

/-- The part of a line before the fields. -/
def head (form : Form) : List Char :=
  (Text.padStart 5 form.level.name ++ " lox_lexer::scanner: " ++ form.message).toList

end Form

/-- The forms of the events of a scan. -/
def forms : List Form := [.started, .token, .fault, .finished]

/-- No form begins like another one. -/
theorem eq_of_isPrefix_head : ∀ f ∈ forms, ∀ g ∈ forms, f.head <+: g.head → f = g := by
  decide +kernel

/-! ## Reading -/

/-- The value of a field, and what is behind it. -/
def Shape.read? (shape : Shape) (text : List Char) : Option (Field × List Char) :=
  match shape with
  | count =>
    some (.count (Nat.ofDigitChars 10 (text.takeWhile Char.isDigit) 0), text.dropWhile Char.isDigit)
  | name => some (.plain (String.ofList (text.takeWhile isNamePart)), text.dropWhile isNamePart)
  | quoted => (unquote text).map fun (inside, behind) => (.quoted (String.ofList inside), behind)
  | sentence => some (.plain (String.ofList text), [])

/-- The fields with these names and shapes, if there is nothing else. -/
def readFields : List (String × Shape) → List Char → Option (List (String × Field))
  | [], [] => some []
  | [], _ :: _ => none
  | (name, shape) :: shapes, text =>
    (text.dropPrefix? (' ' :: (name.toList ++ ['=']))).bind fun rest =>
      (shape.read? rest).bind fun (value, rest) =>
        (readFields shapes rest).map ((name, value) :: ·)

/-- The entry of a line of this form. -/
def Form.read? (form : Form) (line : List Char) : Option Entry :=
  (line.dropPrefix? form.head).bind fun rest =>
    (readFields form.fields rest).map (scanEntry form.level form.message)

/-- **The entry of a line.** -/
def readEntry (line : List Char) : Option Entry := forms.findSome? (·.read? line)

/-- **The entries of a log** up to the end of a scan, and the lines behind it. -/
def readLog : List (List Char) → Option (List Entry × List (List Char))
  | [] => none
  | line :: lines =>
    (readEntry line).bind fun e =>
      if e.message = Form.finished.message then some ([e], lines)
      else (readLog lines).map fun (es, later) => (e :: es, later)

/-! ## Fields -/

/-- Fields as they are written. -/
def fieldsText (fields : List (String × Field)) : List Char :=
  fields.flatMap fun (name, value) => ' ' :: (name.toList ++ '=' :: value.text.toList)

/-- **Fields of given names and shapes.** A sentence is the last one. -/
inductive Conform : List (String × Shape) → List (String × Field) → Prop
  | nil : Conform [] []
  | count {name : String} {shapes : List (String × Shape)} {fields : List (String × Field)}
      (n : Nat) : Conform shapes fields →
      Conform ((name, .count) :: shapes) ((name, .count n) :: fields)
  | name {name : String} {shapes : List (String × Shape)} {fields : List (String × Field)}
      {text : String} : (∀ c ∈ text.toList, isNamePart c = true) → Conform shapes fields →
      Conform ((name, .name) :: shapes) ((name, .plain text) :: fields)
  | quoted {name : String} {shapes : List (String × Shape)} {fields : List (String × Field)}
      (text : String) : Conform shapes fields →
      Conform ((name, .quoted) :: shapes) ((name, .quoted text) :: fields)
  | sentence {name : String} (text : String) : Conform [(name, .sentence)] [(name, .plain text)]

theorem dropPrefix?_append (lead rest : List Char) : (lead ++ rest).dropPrefix? lead = some rest :=
  List.dropPrefix?_eq_some_iff.mpr ⟨lead, rfl, beq_self_eq_true lead⟩

/-- Fields are separated by spaces. -/
theorem stops_fieldsText {p : Char → Bool} (hp : p ' ' = false) (fields : List (String × Field)) :
    Stops p (fieldsText fields) := by
  cases fields with
  | nil => exact stops_nil
  | cons field fields => exact stops_cons hp

/-- A field is read if its value is. -/
theorem readFields_cons {name : String} {shape : Shape} {value : Field}
    {shapes : List (String × Shape)} {fields : List (String × Field)}
    (hvalue : shape.read? (value.text.toList ++ fieldsText fields) =
      some (value, fieldsText fields))
    (hrest : readFields shapes (fieldsText fields) = some fields) :
    readFields ((name, shape) :: shapes) (fieldsText ((name, value) :: fields)) =
      some ((name, value) :: fields) := by
  have htext : fieldsText ((name, value) :: fields) =
      (' ' :: (name.toList ++ ['='])) ++ (value.text.toList ++ fieldsText fields) := by
    simp [fieldsText]
  rw [readFields, htext, dropPrefix?_append, Option.bind_some, hvalue, Option.bind_some]
  simp only [hrest, Option.map_some]

/-- **Fields are read back.** -/
theorem readFields_fieldsText {shapes : List (String × Shape)} {fields : List (String × Field)}
    (h : Conform shapes fields) : readFields shapes (fieldsText fields) = some fields := by
  induction h with
  | nil => rfl
  | @count _ _ fields n _ ih =>
    refine readFields_cons ?_ ih
    have hstop : Stops Char.isDigit (fieldsText fields) := stops_fieldsText (by decide) fields
    rw [Shape.read?, Field.text, takeWhile_append_of_stops isDigit_of_mem_toString hstop,
      dropWhile_append_of_stops isDigit_of_mem_toString hstop, Nat.toString_eq_repr,
      Nat.toList_repr, Nat.ofDigitChars_ten_toDigits]
  | @name _ _ fields text htext _ ih =>
    refine readFields_cons ?_ ih
    have hstop : Stops isNamePart (fieldsText fields) := stops_fieldsText (by decide) fields
    rw [Shape.read?, Field.text, takeWhile_append_of_stops htext hstop,
      dropWhile_append_of_stops htext hstop, String.ofList_toList]
  | quoted text _ ih =>
    refine readFields_cons ?_ ih
    rw [Shape.read?, Field.text, Text.quoteText, String.toList_ofList, Text.unquote_quote]
    simp only [Option.map_some, String.ofList_toList]
  | sentence text =>
    refine readFields_cons ?_ rfl
    have hempty : fieldsText [] = [] := rfl
    rw [Shape.read?, Field.text, hempty, List.append_nil, String.ofList_toList]

/-! ## Lines -/

/-- **The line of an event** in a log. -/
def Event.line (e : Event) : List Char := e.entry.text.toList

/-- The form of the line of an event. -/
def Event.form : Event → Form
  | started _ => .started
  | token _ => .token
  | fault _ => .fault
  | finished .. => .finished

theorem Event.form_mem (e : Event) : e.form ∈ forms := by
  cases e <;> simp [form, forms]

theorem Event.conform (e : Event) : Conform e.form.fields e.fields := by
  cases e with
  | started bytes => exact .count bytes .nil
  | token t => exact .name t.kind.isNamePart_of_mem_name (.quoted t.lexeme (.count _ .nil))
  | fault f => exact .count _ (.sentence f.message)
  | finished tokens errors lines => exact .count tokens (.count errors (.count _ .nil))

/-- A line begins as its form says, and behind that are its fields. -/
theorem Event.line_eq (e : Event) : e.line = e.form.head ++ fieldsText e.fields := by
  have hmessage : Text.disarm e.message.toList = e.message.toList :=
    Text.disarm_eq_self fun c hc => Text.isCommand_of_isControl (e.hasNoControl_message c hc)
  have hlevel : e.form.level = e.level := by cases e <;> rfl
  have hform : e.form.message = e.message := by cases e <;> rfl
  have htarget : " lox_lexer::scanner: " = " " ++ "lox_lexer::scanner" ++ ": " := by decide
  rw [line, Entry.text, Form.head, hlevel, hform, htarget]
  simp [entry, hmessage, fieldsText, String.toList_join, List.flatMap_map]

theorem Form.eq_of_read? {form : Form} {e : Event} {found : Entry} (h : form ∈ forms)
    (hread : form.read? e.line = some found) : form = e.form := by
  rw [Form.read?, Option.bind_eq_some_iff] at hread
  obtain ⟨rest, hrest, -⟩ := hread
  obtain ⟨lead, hline, hlead⟩ := List.dropPrefix?_eq_some_iff.mp hrest
  rw [eq_of_beq hlead] at hline
  -- the line begins like both forms, so one of them begins like the other
  have hform : form.head <+: e.line := ⟨rest, hline.symm⟩
  have hown : e.form.head <+: e.line := ⟨_, e.line_eq.symm⟩
  rcases List.prefix_or_prefix_of_prefix hform hown with hbegins | hbegins
  · exact eq_of_isPrefix_head _ h _ e.form_mem hbegins
  · exact (eq_of_isPrefix_head _ e.form_mem _ h hbegins).symm

/-- **The line of an event is read back.** -/
theorem readEntry_line (e : Event) : readEntry e.line = some e.entry := by
  have hown : e.form.read? e.line = some e.entry := by
    rw [Form.read?, e.line_eq, dropPrefix?_append, Option.bind_some,
      readFields_fieldsText e.conform]
    cases e <;> rfl
  have hsome : (readEntry e.line).isSome = true :=
    List.findSome?_isSome_iff.mpr ⟨e.form, e.form_mem, by rw [hown]; rfl⟩
  obtain ⟨found, hfound⟩ := Option.isSome_iff_exists.mp hsome
  obtain ⟨form, hform, hread⟩ := List.exists_of_findSome?_eq_some hfound
  rw [hfound, ← hread, Form.eq_of_read? hform hread, hown]

/-- The lexeme of a token stands in its line between quotation marks, from where it can be read. -/
theorem Event.line_token (t : Token) : (Event.token t).line =
    "TRACE lox_lexer::scanner: token kind=".toList ++ t.kind.name.toList ++ " lexeme=".toList ++
      quote '"' t.lexeme.toList ++ " line=".toList ++ (toString t.line.toNat).toList := by
  have hhead : Form.token.head ++ " kind=".toList =
      "TRACE lox_lexer::scanner: token kind=".toList := by decide +kernel
  rw [line_eq, ← hhead]
  simp [form, fields, fieldsText, Field.text, Text.quoteText]

/-! ## Logs -/

/-- The events before the end of a scan are of other forms. -/
theorem readLog_append {es : List Event} (h : ∀ e ∈ es, e.message ≠ Form.finished.message)
    (tokens errors : Nat) (lines : UInt32) (later : List (List Char)) :
    readLog ((es ++ [Event.finished tokens errors lines]).map Event.line ++ later) =
      some ((es ++ [Event.finished tokens errors lines]).map Event.entry, later) := by
  induction es with
  | nil =>
    rw [List.nil_append, List.map_singleton, List.singleton_append, readLog, readEntry_line,
      Option.bind_some]
    exact if_pos rfl
  | cons e es ih =>
    have hmessage : e.entry.message ≠ Form.finished.message := h e List.mem_cons_self
    rw [List.cons_append, List.map_cons, List.cons_append, readLog, readEntry_line,
      Option.bind_some, if_neg hmessage, ih fun e' he' => h e' (List.mem_cons_of_mem e he')]
    rfl

/-- **The log of a scan is read back**, whatever is behind it. -/
theorem readLog_events (source : String) (later : List (List Char)) :
    readLog ((events source).map Event.line ++ later) =
      some ((events source).map Event.entry, later) := by
  refine readLog_append (fun e he => ?_) _ _ _ later
  rcases List.mem_cons.mp he with rfl | he
  · exact (by decide : "scanning source" ≠ "scan finished")
  · obtain ⟨f, -, rfl⟩ := List.mem_map.mp he
    cases f with
    | token => exact (by decide : "token" ≠ "scan finished")
    | fault => exact (by decide : "scan error" ≠ "scan finished")

/-! ## What the entries tell -/

/-- The entry on the token of a lexeme tells the token: the text is that of one lexeme only. -/
theorem Lexeme.traced_inj {l m : Lexeme} {line line' : UInt32}
    (h : (l.token line).traced = (m.token line').traced) : l.token line = m.token line' := by
  have hfields := congrArg Entry.fields h
  simp only [Token.traced, scanEntry, Lexeme.token, List.cons.injEq, Prod.mk.injEq,
    Field.quoted.injEq, Field.count.injEq, true_and, and_true] at hfields
  obtain ⟨-, htext, hline⟩ := hfields
  have htext : l.text = m.text := by
    rw [← String.toList_ofList (l := l.text), htext, String.toList_ofList]
  obtain rfl : line = line' := UInt32.toNat_inj.mp hline
  have hm := m.isLexeme
  rw [← htext] at hm
  rw [Lexeme.ext (l.isLexeme.kind_unique hm) htext]

theorem eq_of_map_traced {ts us : List Token} (hts : ∀ t ∈ ts, ∃ l : Lexeme, t = l.token t.line)
    (hus : ∀ u ∈ us, ∃ m : Lexeme, u = m.token u.line)
    (h : ts.map Token.traced = us.map Token.traced) : ts = us := by
  induction ts generalizing us with
  | nil => exact (List.map_eq_nil_iff.mp h.symm).symm
  | cons t ts ih =>
    obtain ⟨u, us, rfl⟩ := List.exists_cons_of_ne_nil fun hnil : us = [] => by simp [hnil] at h
    obtain ⟨hfirst, hrest⟩ := List.cons.inj h
    obtain ⟨l, hl⟩ := hts t List.mem_cons_self
    obtain ⟨m, hm⟩ := hus u List.mem_cons_self
    have htoken : t = u := by
      rw [hl, hm] at hfirst ⊢
      exact Lexeme.traced_inj hfirst
    rw [htoken, ih (fun t' ht => hts t' (List.mem_cons_of_mem t ht))
      (fun u' hu => hus u' (List.mem_cons_of_mem u hu)) hrest]

/-- What an entry on a fault says of it: the line and the message. -/
theorem map_noted_inj {ds ds' : List Diagnostic}
    (h : ds.map Diagnostic.noted = ds'.map Diagnostic.noted) :
    (ds.map fun d => (d.line, d.message)) = ds'.map fun d => (d.line, d.message) := by
  have hnoted (ds : List Diagnostic) : ds.map Diagnostic.noted =
      (ds.map fun d => (d.line, d.message)).map fun (line, message) =>
        scanEntry .debug "scan error" [("line", .count line.toNat), ("error", .plain message)] := by
    rw [List.map_map]
    rfl
  rw [hnoted, hnoted] at h
  refine List.map_injective_iff.mpr ?_ h
  rintro ⟨line, message⟩ ⟨line', message'⟩ hentry
  simpa [scanEntry, UInt32.toNat_inj] using hentry

/-- **The log of a scan tells the tokens and the errors**, each with all that it says. -/
theorem scan_eq_of_entries_eq {source other : String}
    (h : (events source).map Event.entry = (events other).map Event.entry) :
    (scan source).tokens = (scan other).tokens ∧ (scan source).errors = (scan other).errors := by
  obtain ⟨ts, eof, told, hlog⟩ := scan_isLogged source
  obtain ⟨us, eof', told', hlog'⟩ := scan_isLogged other
  have hentries := hlog.log_eq.symm.trans (h.trans hlog'.log_eq)
  obtain ⟨hfront, hlast⟩ := List.append_inj' hentries rfl
  obtain rfl : told = told' := (List.cons.inj hfront).2
  have htokens {source : String} {ts : List Token} {eof : Token}
      (h : (scan source).tokens = ts ++ [eof]) :
      (∀ t ∈ ts, ∃ l : Lexeme, t = l.token t.line) ∧ eof = Token.eof eof.line := by
    rw [scan_tokens, tokens_eq_visits] at h
    obtain ⟨rfl, hlast⟩ := List.append_inj' h rfl
    obtain rfl := List.singleton_inj.mp hlast
    exact ⟨fun t ht => exists_lexeme_token ht, rfl⟩
  obtain ⟨hts, heof⟩ := htokens hlog.tokens
  obtain ⟨hus, heof'⟩ := htokens hlog'.tokens
  have hline : eof.line = eof'.line := by
    have hclosing := congrArg Entry.fields (List.singleton_inj.mp hlast)
    simp only [closing, scanEntry, List.cons.injEq, Prod.mk.injEq, Field.count.injEq, true_and,
      and_true] at hclosing
    exact UInt32.toNat_inj.mp hclosing.2.2
  refine ⟨?_, map_noted_inj (hlog.noted.symm.trans hlog'.noted)⟩
  rw [hlog.tokens, hlog'.tokens, eq_of_map_traced hts hus (hlog.traced.symm.trans hlog'.traced),
    heof, heof', hline]

end Lox
