import Lox.Proofs.Blocks

/-!
# Colours only decorate

A coloured text holds control sequences, and without them it is the text written without colours.
This is told piece by piece: a sequence begins with an escape character, so in a text that holds
none only the changes of style are taken out.

## Main definitions

* `afterColour?`, `uncolour`: what follows a colour sequence, and a text without these sequences
* `Decorates coloured plain`: a text that adds nothing but whole colour sequences to another one
* `IsTame`: a text without escape characters
* `Diagnostic.IsTame`, `Source.IsTame`: a diagnostic and a source of such texts

## Main results

* `decorates_write`: a styled text decorates the same text without colours
* `Report.decorates_render`: so do the blocks of a report
* `isTame_of_mem_report`: the diagnostics of a scan hold no escape character, whatever it scans
-/

namespace Lox

namespace Text

/-! ## Texts without colour sequences -/

/-- The characters between the bracket and the letter of a colour sequence. -/
def isParameter (c : Char) : Bool := c.isDigit || c = ';'

/-- What follows the colour sequence at the beginning of a text: an escape character, a bracket,
parameters, and the letter `m`. -/
def afterColour? : List Char → Option (List Char)
  | '\x1b' :: '[' :: rest =>
    match rest.dropWhile isParameter with
    | 'm' :: after => some after
    | _ => none
  | _ => none

theorem length_lt_of_afterColour? {text after : List Char} (h : afterColour? text = some after) :
    after.length < text.length := by
  unfold afterColour? at h
  split at h
  · next rest =>
    split at h
    · next rest' hrest =>
      obtain rfl := Option.some.inj h
      have hle := (List.dropWhile_sublist (l := rest) isParameter).length_le
      rw [hrest, List.length_cons] at hle
      rw [List.length_cons, List.length_cons]
      omega
    · cases h
  · cases h

/-- **A text without its colour sequences.** -/
def uncolour : List Char → List Char
  | [] => []
  | c :: rest =>
    match _h : afterColour? (c :: rest) with
    | some after => uncolour after
    | none => c :: uncolour rest
termination_by text => text.length
decreasing_by
  · exact length_lt_of_afterColour? _h
  · simp

theorem uncolour_nil : uncolour [] = [] := by rw [uncolour]

theorem uncolour_of_afterColour? {text after : List Char} (h : afterColour? text = some after) :
    uncolour text = uncolour after := by
  cases text with
  | nil => cases h
  | cons c rest =>
    rw [uncolour]
    split
    · next h' => rw [Option.some.inj (h'.symm.trans h)]
    · next h' => cases h'.symm.trans h

theorem afterColour?_cons {c : Char} (hc : c ≠ '\x1b') (rest : List Char) :
    afterColour? (c :: rest) = none := by
  unfold afterColour?
  split
  · next heq => exact absurd (List.cons.inj heq).1 hc
  · rfl

/-- The sequence of a style is a colour sequence, whatever follows. -/
theorem afterColour?_code (style : Style) (rest : List Char) :
    afterColour? (style.code.toList ++ rest) = some rest := by
  cases style <;> rfl

theorem uncolour_cons {c : Char} (hc : c ≠ '\x1b') (rest : List Char) :
    uncolour (c :: rest) = c :: uncolour rest := by
  rw [uncolour]
  split
  · next h => cases (afterColour?_cons hc rest).symm.trans h
  · rfl

/-- A sequence that breaks off is no colour sequence. -/
example : uncolour "\x1b[1;31merror\x1b[0m: \x1b[2".toList = "error: \x1b[2".toList := by cbv

/-! ## Decorated texts -/

/-- **A text decorates another one**: nothing but whole colour sequences is taken out of it, whatever
follows. -/
def Decorates (coloured plain : String) : Prop :=
  ∀ rest, uncolour (coloured.toList ++ rest) = plain.toList ++ uncolour rest

/-- A text without escape characters. -/
def IsTame (text : String) : Prop := '\x1b' ∉ text.toList

instance (text : String) : Decidable (IsTame text) := inferInstanceAs (Decidable (_ ∉ _))

section

variable {s s' t t' : String}

theorem IsTame.append (hs : IsTame s) (ht : IsTame t) : IsTame (s ++ t) := notMem_append hs ht

theorem IsTame.ne_escape (h : IsTame s) : ∀ c ∈ s.toList, c ≠ '\x1b' := by
  rintro c hc rfl
  exact h hc

theorem isTame_toString (n : Nat) : IsTame (toString n) := notMem_toString (by decide) n

theorem Decorates.uncolour_eq (h : Decorates s t) : uncolour s.toList = t.toList := by
  have hrest := h []
  rwa [List.append_nil, uncolour_nil, List.append_nil] at hrest

theorem Decorates.append (h : Decorates s s') (h' : Decorates t t') :
    Decorates (s ++ t) (s' ++ t') := by
  intro rest
  rw [String.toList_append, String.toList_append, List.append_assoc, h, h', List.append_assoc]

/-- A text without escape characters stays as it is. -/
theorem IsTame.decorates (h : IsTame s) : Decorates s s := by
  intro rest
  unfold IsTame at h
  generalize s.toList = text at h ⊢
  induction text with
  | nil => rfl
  | cons c text ih =>
    rw [List.mem_cons, not_or] at h
    rw [List.cons_append, uncolour_cons (Ne.symm h.1), ih h.2, List.cons_append]

/-- A change of style is taken out. -/
theorem decorates_code (style : Style) : Decorates style.code "" := by
  intro rest
  rw [uncolour_of_afterColour? (afterColour?_code style rest)]
  rfl

/-- A piece of styled text without escape characters of its own. -/
def Piece.IsTame : Piece → Prop
  | style _ => True
  | plain text => Text.IsTame text

/-- **A styled text decorates the same text without colours.** -/
theorem decorates_write (coloured : Bool) {ps : List Piece} (h : ∀ p ∈ ps, p.IsTame) :
    Decorates (write coloured ps) (write false ps) := by
  induction ps with
  | nil => exact IsTame.decorates (by simp [IsTame])
  | cons p ps ih =>
    obtain ⟨hp, hps⟩ := List.forall_mem_cons.mp h
    have split (c : Bool) : write c (p :: ps) = p.write c ++ write c ps := by simp [write]
    rw [split, split]
    apply Decorates.append _ (ih hps)
    cases p with
    | plain text => exact IsTame.decorates hp
    | style style =>
      cases coloured with
      | true => exact decorates_code style
      | false => exact IsTame.decorates (by simp [IsTame, Piece.write])

/-- A relation of texts that is kept by appending holds of texts joined by a separator. -/
theorem intercalate_map_rel {α : Type} {R : String → String → Prop} (hnil : R "" "")
    (happend : ∀ {s s' t t' : String}, R s s' → R t t' → R (s ++ t) (s' ++ t')) {sep : String}
    (hsep : R sep sep) {f g : α → String} {xs : List α} (h : ∀ x ∈ xs, R (f x) (g x)) :
    R (sep.intercalate (xs.map f)) (sep.intercalate (xs.map g)) := by
  induction xs with
  | nil => exact hnil
  | cons x xs ih =>
    have hx := h x List.mem_cons_self
    have hxs := ih fun y hy => h y (List.mem_cons_of_mem x hy)
    cases xs with
    | nil => simpa using hx
    | cons y ys =>
      simp only [List.map_cons, String.intercalate_cons_cons] at hxs ⊢
      exact happend (happend hx hsep) hxs

end

end Text

open Text

/-! ## Rendered diagnostics -/

/-- **A diagnostic without escape characters.** -/
structure Diagnostic.IsTame (d : Diagnostic) : Prop where
  family : ∀ code ∈ d.code, code.family ≠ '\x1b'
  message : Text.IsTame d.message
  notes : ∀ note ∈ d.notes, Text.IsTame note
  help : ∀ help ∈ d.help, Text.IsTame help

/-- A source without escape characters. -/
structure Source.IsTame (source : Source) : Prop where
  name : Text.IsTame source.name
  text : Text.IsTame source.text

/-- A line of a source holds characters of the source. -/
theorem Source.IsTame.line {source : Source} (h : source.IsTame) {line : UInt32} {text : String}
    (hl : source.line? line = some text) : Text.IsTame text := by
  intro hmem
  have hline := Source.isLine_of_line? hl
  cases hline with
  | intro ht =>
    have htext := h.text
    rw [Text.IsTame, ht] at htext
    exact htext (List.mem_append_left _ (List.mem_append_right _ (List.mem_append_left _ hmem)))

theorem Code.isTame_text {code : Code} (h : code.family ≠ '\x1b') : Text.IsTame code.text := by
  apply Text.IsTame.append
  · simpa [Text.IsTame] using Ne.symm h
  · intro hmem
    rcases Column.mem_set hmem with hfill | hnumber
    · cases hfill
    · exact isTame_toString _ hnumber

namespace Diagnostic

variable {d : Diagnostic}

theorem IsTame.headline (h : d.IsTame) : ∀ p ∈ d.headline, p.IsTame := by
  have hseverity : Text.IsTame d.severity.name := by cases d.severity <;> decide
  rw [Diagnostic.headline]
  cases hc : d.code with
  | none => simpa [Piece.IsTame, Text.IsTame] using ⟨hseverity, h.message⟩
  | some code =>
    have hcode : Text.IsTame code.text := Code.isTame_text (h.family code hc)
    simpa [Piece.IsTame, Text.IsTame] using ⟨hseverity, hcode, h.message⟩

theorem isTame_gutter (number : String) : ∀ p ∈ gutter number, p.IsTame := by
  simp [gutter, Piece.IsTame, Text.IsTame]

theorem isTame_snippet {number shown : String} (hnumber : Text.IsTame number)
    (hshown : Text.IsTame shown) : ∀ p ∈ snippet number shown, p.IsTame := by
  rw [snippet, List.forall_mem_append, List.forall_mem_append]
  refine ⟨⟨isTame_gutter number, ?_⟩, isTame_gutter number⟩
  simpa [Piece.IsTame, Text.IsTame] using ⟨hnumber, hshown⟩

theorem isTame_place (d : Diagnostic) {source : Source} (hs : source.IsTame) :
    ∀ p ∈ d.place source, p.IsTame := by
  have hnumber := isTame_toString d.line.toNat
  rw [place]
  generalize toString d.line.toNat = number at hnumber ⊢
  simpa [Piece.IsTame, Text.IsTame] using ⟨hs.name, hnumber⟩

theorem isTame_remark (style : Style) {label text : String} (hlabel : Text.IsTame label)
    (htext : Text.IsTame text) : ∀ p ∈ remark style label text, p.IsTame := by
  simpa [remark, Piece.IsTame, Text.IsTame] using ⟨hlabel, htext⟩

/-- **The layout of a diagnostic** holds its texts, those of the source, and no escape character of
its own. -/
theorem IsTame.layout (h : d.IsTame) {source : Option Source} (hs : ∀ s ∈ source, s.IsTame) :
    ∀ p ∈ d.layout source, p.IsTame := by
  intro p hp
  simp only [Diagnostic.layout, List.mem_append] at hp
  rcases hp with ((hp | hp) | hp) | hp
  · exact h.headline p hp
  · cases source with
    | none => cases hp
    | some s =>
      have hs : s.IsTame := hs s rfl
      simp only [context, List.mem_append] at hp
      rcases hp with hp | hp
      · exact isTame_place d hs p hp
      · split at hp
        · cases hp
        · next shown hline => exact isTame_snippet (isTame_toString _) (hs.line hline) p hp
  · obtain ⟨note, hnote, hp⟩ := List.mem_flatMap.mp hp
    exact isTame_remark .bold (by decide) (h.notes note hnote) p hp
  · obtain ⟨help, hhelp, hp⟩ := List.mem_flatMap.mp hp
    exact isTame_remark .green (by decide) (h.help help hhelp) p hp

/-- **A coloured diagnostic decorates the same one without colours.** -/
theorem IsTame.decorates_render (h : d.IsTame) {r : Rendering} (hs : ∀ s ∈ r.source, s.IsTame) :
    Decorates (d.render r) (d.render r.withoutColours) :=
  decorates_write r.coloured (h.layout hs)

end Diagnostic

/-- **A coloured report decorates the same one without colours.** -/
theorem Report.decorates_render {report : Report} (h : ∀ d ∈ report.toList, d.IsTame)
    {r : Rendering} (hs : ∀ s ∈ r.source, s.IsTame) :
    Decorates (report.render r) (report.render r.withoutColours) :=
  intercalate_map_rel (IsTame.decorates (by decide)) .append (IsTame.decorates (by decide))
    fun d hd => (h d hd).decorates_render hs

/-! ## What a scan says -/

theorem isTame_quoteChar (c : Char) : Text.IsTame (quoteChar c) := by
  intro hmem
  rw [quoteChar, String.toList_ofList] at hmem
  exact absurd (isControl_of_mem_quote (by decide) hmem) (by decide)

theorem Cause.isTame_message (cause : Cause) : Text.IsTame cause.message := by
  cases cause <;> simp [Text.IsTame, Cause.message]

theorem Cause.family_ne_escape (cause : Cause) : cause.code.family ≠ '\x1b' := by
  cases cause <;> simp [Cause.code]

theorem Fault.isTame_diagnostic {f : Fault}
    (h : (∃ c, f.cause = .unexpected c) ∨ f.cause = .unterminated) : f.diagnostic.IsTame := by
  have hfamily : ∀ code ∈ f.diagnostic.code, code.family ≠ '\x1b' := by
    rw [f.diagnostic_code]
    rintro code ⟨⟩
    exact f.cause.family_ne_escape
  have hmessage : Text.IsTame f.diagnostic.message := by
    rw [f.diagnostic_message]
    exact f.cause.isTame_message
  obtain ⟨line, cause⟩ := f
  rcases h with ⟨c, rfl⟩ | rfl
  · refine ⟨hfamily, hmessage, ?_, ?_⟩
    · intro note hnote
      obtain rfl := List.mem_singleton.mp hnote
      exact Text.IsTame.append (.append (by decide) (isTame_quoteChar c)) (by decide)
    · exact nofun
  · refine ⟨hfamily, hmessage, ?_, ?_⟩
    · exact nofun
    · intro help hhelp
      obtain rfl := List.mem_singleton.mp hhelp
      decide

/-- **The diagnostics of a scan hold no escape character**, whatever stands in the source. -/
theorem isTame_of_mem_report {source : String} {d : Diagnostic}
    (h : d ∈ (scan source).report.toList) : d.IsTame := by
  rw [scan_report] at h
  obtain ⟨f, hf, rfl⟩ := List.mem_map.mp h
  obtain ⟨v, hv, hvf⟩ := List.mem_filterMap.mp (faults_eq_visits source ▸ hf)
  exact f.isTame_diagnostic
    ((cause_of_fault hv hvf).2.imp (fun ⟨c, _, hc⟩ => ⟨c, hc⟩) fun ⟨_, _, hc⟩ => hc)

end Lox
