import Lox.Scan.Event

/-!
# The lines of a log

An entry of a log is written with the level, the part of the program that speaks, a message and
fields. A message may come from outside and is disarmed. The fields of the events of a scan are
numbers, names and quoted lexemes, so an event is written without control characters, whatever
stands in the source.

## Main definitions

* `HasNoControl`: a text without control characters

## Main results

* `Entry.forall_mem_text`: what holds of all parts of an entry holds of its text
* `Event.hasNoControl_text`: no control character is written for an event
-/

namespace Lox

open Text (isControl)

/-- A text without control characters. -/
def Text.HasNoControl (text : String) : Prop := ∀ c ∈ text.toList, isControl c = false

instance (text : String) : Decidable (Text.HasNoControl text) :=
  decidable_of_iff (text.toList.all (!isControl ·) = true) (by simp [Text.HasNoControl])

open Text (HasNoControl)

/-- **What holds of all parts of an entry holds of its text.** -/
theorem Entry.forall_mem_text {e : Entry} {p : Char → Prop} (hspace : p ' ') (hcolon : p ':')
    (hequals : p '=') (hlevel : ∀ c ∈ e.level.name.toList, p c)
    (htarget : ∀ c ∈ e.target.toList, p c) (hmessage : ∀ c ∈ Text.disarm e.message.toList, p c)
    (hfields : ∀ field ∈ e.fields,
      (∀ c ∈ field.1.toList, p c) ∧ ∀ c ∈ field.2.text.toList, p c) :
    ∀ c ∈ e.text.toList, p c := by
  intro c h
  simp only [Entry.text, String.toList_append, String.toList_ofList, List.mem_append,
    Text.toList_padStart, List.mem_replicate, String.toList_join, List.flatMap_map,
    List.mem_flatMap] at h
  rcases h with (((((⟨-, h⟩ | h) | h) | h) | h) | h) | ⟨field, hfield, ((h | h) | h) | h⟩
  · exact h ▸ hspace
  · exact hlevel c h
  · have h : c = ' ' := by simpa using h
    exact h ▸ hspace
  · exact htarget c h
  · have h : c = ':' ∨ c = ' ' := by simpa using h
    rcases h with rfl | rfl
    · exact hcolon
    · exact hspace
  · exact hmessage c h
  · have h : c = ' ' := by simpa using h
    exact h ▸ hspace
  · exact (hfields field hfield).1 c h
  · have h : c = '=' := by simpa using h
    exact h ▸ hequals
  · exact (hfields field hfield).2 c h

/-! ## The parts of an event -/

theorem Level.hasNoControl_name (level : Level) : HasNoControl level.name := by
  cases level <;> decide

theorem Kind.hasNoControl_name (k : Kind) : HasNoControl k.name := by
  have all : ∀ k ∈ Kind.all, HasNoControl k.name := by decide +kernel
  exact all k (Kind.mem_all k)

theorem Cause.hasNoControl_message (cause : Cause) : HasNoControl cause.message := by
  cases cause <;> simp [HasNoControl, Cause.message, isControl]

theorem hasNoControl_toString (n : Nat) : HasNoControl (toString n) := by
  intro c hc
  rw [Nat.toString_eq_repr, Nat.toList_repr] at hc
  exact Text.isControl_of_mem_toDigits (by decide) hc

theorem hasNoControl_quoteText (text : String) : HasNoControl (Text.quoteText text) := by
  intro c hc
  rw [Text.quoteText, String.toList_ofList] at hc
  exact Text.isControl_of_mem_quote (by decide) hc

theorem Event.hasNoControl_message (e : Event) : HasNoControl e.message := by
  cases e <;> simp [HasNoControl, Event.message, isControl]

theorem Event.hasNoControl_names (e : Event) :
    ∀ name ∈ e.fields.map Prod.fst, HasNoControl name := by
  cases e with
  | started => exact (by decide : ∀ name ∈ ["bytes"], HasNoControl name)
  | token => exact (by decide : ∀ name ∈ ["kind", "lexeme", "line"], HasNoControl name)
  | fault => exact (by decide : ∀ name ∈ ["line", "error"], HasNoControl name)
  | finished => exact (by decide : ∀ name ∈ ["tokens", "errors", "lines"], HasNoControl name)

theorem Event.hasNoControl_values (e : Event) :
    ∀ value ∈ e.fields.map Prod.snd, HasNoControl value.text := by
  intro value hvalue
  cases e with
  | started bytes =>
    obtain rfl := List.mem_singleton.mp hvalue
    exact hasNoControl_toString bytes
  | token t =>
    simp only [fields, List.map_cons, List.map_nil, List.mem_cons, List.not_mem_nil,
      or_false] at hvalue
    rcases hvalue with rfl | rfl | rfl
    · exact t.kind.hasNoControl_name
    · exact hasNoControl_quoteText t.lexeme
    · exact hasNoControl_toString t.line.toNat
  | fault f =>
    simp only [fields, List.map_cons, List.map_nil, List.mem_cons, List.not_mem_nil,
      or_false] at hvalue
    rcases hvalue with rfl | rfl
    · exact hasNoControl_toString f.line.toNat
    · exact f.cause.hasNoControl_message
  | finished tokens errors lines =>
    simp only [fields, List.map_cons, List.map_nil, List.mem_cons, List.not_mem_nil,
      or_false] at hvalue
    rcases hvalue with rfl | rfl | rfl
    · exact hasNoControl_toString tokens
    · exact hasNoControl_toString errors
    · exact hasNoControl_toString lines.toNat

/-- **No control character is written for an event**, whatever stands in the source. -/
theorem Event.hasNoControl_text (e : Event) : HasNoControl e.entry.text := by
  apply Entry.forall_mem_text (p := (isControl · = false)) (by decide) (by decide) (by decide)
  · exact e.level.hasNoControl_name
  · change HasNoControl "lox_lexer::scanner"
    decide
  · have hmessage : HasNoControl e.message := e.hasNoControl_message
    change ∀ c ∈ Text.disarm e.message.toList, isControl c = false
    rwa [Text.disarm_eq_self fun c hc => Text.isCommand_of_isControl (hmessage c hc)]
  · intro field hfield
    exact ⟨e.hasNoControl_names _ (List.mem_map_of_mem hfield),
      e.hasNoControl_values _ (List.mem_map_of_mem hfield)⟩

end Lox
