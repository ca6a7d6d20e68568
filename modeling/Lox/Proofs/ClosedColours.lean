import Lox.Proofs.Colours
import Lox.Source.Collection

/-!
# Colours are closed

A rendering with colours leaves the terminal as it was: behind every sequence that changes the
style there is a reset. The sequences are read off the text, like those that `uncolour` takes out,
and each part of a layout ends its own styles, so that they end however the parts are combined.

## Main definitions

* `sequences`: the colour sequences of a text
* `inForce`: the styles that are left at the end of some sequences
* `IsColouring coloured plain`: a text that decorates another one and leaves no style behind
* `ColourCall`, `Rendering.called`: the calls that switch colours on and off

## Main results

* `isClosed_layout`: the layout of a diagnostic ends its styles
* `Sources.isColouring_render`: the last call decides on colours, and colours only decorate
-/

namespace Lox

namespace Text

/-! ## Colour sequences -/

/-- **The colour sequences of a text**, in order. -/
def sequences : List Char → List (List Char)
  | [] => []
  | c :: rest =>
    match _h : afterColour? (c :: rest) with
    | some after => (c :: rest).take ((c :: rest).length - after.length) :: sequences after
    | none => sequences rest
termination_by text => text.length
decreasing_by
  · exact length_lt_of_afterColour? _h
  · simp

theorem sequences_nil : sequences [] = [] := by rw [sequences]

theorem sequences_of_afterColour? {text after : List Char} (h : afterColour? text = some after) :
    sequences text = text.take (text.length - after.length) :: sequences after := by
  cases text with
  | nil => cases h
  | cons c rest =>
    rw [sequences]
    split
    · next h' => rw [Option.some.inj (h'.symm.trans h)]
    · next h' => cases h'.symm.trans h

theorem sequences_cons {c : Char} (hc : c ≠ '\x1b') (rest : List Char) :
    sequences (c :: rest) = sequences rest := by
  rw [sequences]
  split
  · next h => cases (afterColour?_cons hc rest).symm.trans h
  · rfl

theorem sequences_code (style : Style) (rest : List Char) :
    sequences (style.code.toList ++ rest) = style.code.toList :: sequences rest := by
  rw [sequences_of_afterColour? (afterColour?_code style rest), List.length_append,
    Nat.add_sub_cancel, List.take_left]

/-- The sequence that goes back to the default. -/
def resetSequence : List Char := Style.reset.code.toList

/-- **The styles in force** after some sequences: a reset ends them all. -/
def inForce (ss : List (List Char)) : List (List Char) :=
  ss.foldl (fun styles s => if s = resetSequence then [] else styles ++ [s]) []

/-- A style that is not reset stays in force, and a sequence that breaks off is none. -/
example : inForce (sequences "\x1b[1mnote\x1b[0m: \x1b[1;34m|\x1b[2".toList) =
    ["\x1b[1;34m".toList] := by decide +kernel

/-- **A coloured text of a plain one**: it adds nothing but colour sequences, and leaves the
terminal in its default state. -/
structure IsColouring (coloured plain : String) : Prop where
  tame : IsTame plain
  uncolour_eq : uncolour coloured.toList = plain.toList
  reset_mem : ∀ before s after, sequences coloured.toList = before ++ s :: after →
    s ≠ resetSequence → resetSequence ∈ after
  inForce_eq : inForce (sequences coloured.toList) = []

/-! ## Styles that end -/

/-- A text with the sequences of some styles, whatever follows. -/
def HasStyles (text : String) (styles : List Style) : Prop :=
  ∀ rest, sequences (text.toList ++ rest) = styles.map (·.code.toList) ++ sequences rest

section

variable {s s' t t' : String} {ss ts : List Style}

theorem HasStyles.append (hs : HasStyles s ss) (ht : HasStyles t ts) :
    HasStyles (s ++ t) (ss ++ ts) := by
  intro rest
  rw [String.toList_append, List.append_assoc, hs, ht, List.map_append, List.append_assoc]

theorem HasStyles.sequences_eq (h : HasStyles s ss) :
    sequences s.toList = ss.map (·.code.toList) := by
  have hrest := h []
  rwa [List.append_nil, sequences_nil, List.append_nil] at hrest

theorem IsTame.hasStyles (h : IsTame s) : HasStyles s [] := by
  intro rest
  unfold IsTame at h
  generalize s.toList = text at h ⊢
  induction text with
  | nil => rfl
  | cons c text ih =>
    rw [List.mem_cons, not_or] at h
    rw [List.cons_append, sequences_cons (Ne.symm h.1), ih h.2]

/-- Without colours a styled text has the characters of its pieces only. -/
theorem isTame_write {ps : List Piece} (h : ∀ p ∈ ps, p.IsTame) : IsTame (write false ps) := by
  induction ps with
  | nil => simp [IsTame]
  | cons p ps ih =>
    obtain ⟨hp, hps⟩ := List.forall_mem_cons.mp h
    cases p with
    | style style => simpa using ih hps
    | plain text =>
      rw [write_plain_cons]
      exact IsTame.append hp (ih hps)

/-- The changes of style in a styled text. -/
def styles (ps : List Piece) : List Style :=
  ps.filterMap fun
    | .style style => some style
    | .plain _ => none

/-- A coloured text has the styles of its pieces. -/
theorem hasStyles_write {ps : List Piece} (h : ∀ p ∈ ps, p.IsTame) :
    HasStyles (write true ps) (styles ps) := by
  induction ps with
  | nil => exact IsTame.hasStyles (by simp [IsTame])
  | cons p ps ih =>
    obtain ⟨hp, hps⟩ := List.forall_mem_cons.mp h
    have hwrite : write true (p :: ps) = p.write true ++ write true ps := by simp [write]
    rw [hwrite]
    cases p with
    | plain text => exact (IsTame.hasStyles hp).append (ih hps)
    | style style =>
      have hstyle : HasStyles style.code [style] := sequences_code style
      exact hstyle.append (ih hps)

/-- **Styles that end**: the last change of style goes back to the default. -/
def IsClosed (ss : List Style) : Prop := ∀ style ∈ ss.getLast?, style = .reset

theorem isClosed_nil : IsClosed [] := nofun

theorem isClosed_concat (ss : List Style) : IsClosed (ss ++ [.reset]) := by
  intro style hstyle
  rw [List.getLast?_concat] at hstyle
  exact (Option.some.inj hstyle).symm

theorem IsClosed.append (hs : IsClosed ss) (ht : IsClosed ts) : IsClosed (ss ++ ts) := by
  intro style hstyle
  rw [List.getLast?_append] at hstyle
  cases hlast : ts.getLast? with
  | none => exact hs style (by simpa [hlast] using hstyle)
  | some last => exact ht style (by simpa [hlast] using hstyle)

theorem isClosed_flatMap {α : Type} {xs : List α} {f : α → List Style}
    (h : ∀ x ∈ xs, IsClosed (f x)) : IsClosed (xs.flatMap f) := by
  induction xs with
  | nil => exact isClosed_nil
  | cons x xs ih =>
    rw [List.flatMap_cons]
    exact (h x List.mem_cons_self).append (ih fun y hy => h y (List.mem_cons_of_mem x hy))

theorem IsClosed.eq_nil_or (h : IsClosed ss) : ss = [] ∨ ∃ ss', ss = ss' ++ [.reset] := by
  rcases List.eq_nil_or_concat ss with rfl | ⟨ss', style, rfl⟩
  · exact .inl rfl
  · obtain rfl := h style (by simp)
    exact .inr ⟨ss', by simp⟩

/-- A text that decorates a tame one with styles that end. Unlike the colouring of a whole text,
this is kept by appending. -/
structure Colours (coloured plain : String) : Prop where
  tame : IsTame plain
  decorates : Decorates coloured plain
  styles : ∃ ss, HasStyles coloured ss ∧ IsClosed ss

theorem IsTame.colours (h : IsTame s) : Colours s s :=
  ⟨h, h.decorates, [], h.hasStyles, isClosed_nil⟩

theorem Colours.append (h : Colours s s') (h' : Colours t t') : Colours (s ++ t) (s' ++ t') := by
  obtain ⟨ss, hss, hclosed⟩ := h.styles
  obtain ⟨ts, hts, hclosed'⟩ := h'.styles
  exact ⟨h.tame.append h'.tame, h.decorates.append h'.decorates, ss ++ ts, hss.append hts,
    hclosed.append hclosed'⟩

/-- A styled text whose styles end. -/
theorem colours_write {ps : List Piece} (h : ∀ p ∈ ps, p.IsTame) (hps : IsClosed (styles ps)) :
    Colours (write true ps) (write false ps) :=
  ⟨isTame_write h, decorates_write true h, styles ps, hasStyles_write h, hps⟩

theorem Colours.isColouring (h : Colours s t) : IsColouring s t := by
  obtain ⟨ss, hss, hclosed⟩ := h.styles
  have hseq := hss.sequences_eq
  refine ⟨h.tame, h.decorates.uncolour_eq, ?_, ?_⟩
  · intro before sequence after hmid hne
    rcases hclosed.eq_nil_or with rfl | ⟨ss', rfl⟩
    · simp [hmid] at hseq
    · rw [hmid, List.map_append, List.map_singleton] at hseq
      rcases List.eq_nil_or_concat after with rfl | ⟨after', last, rfl⟩
      · exact absurd (List.append_inj_right' hseq rfl) (by simpa [resetSequence] using hne)
      · rw [List.concat_eq_append, ← List.cons_append, ← List.append_assoc] at hseq
        have hlast := List.append_inj_right' hseq rfl
        simp [resetSequence, List.cons.inj hlast]
  · rw [hseq]
    rcases hclosed.eq_nil_or with rfl | ⟨ss', rfl⟩
    · rfl
    · rw [inForce, List.map_append, List.foldl_append]
      rfl

end

end Text

open Text

/-! ## Rendered diagnostics -/

namespace Diagnostic

theorem isClosed_headline (d : Diagnostic) : IsClosed (styles d.headline) :=
  isClosed_concat [d.severity.style, .reset, .bold]

theorem isClosed_context (d : Diagnostic) (source : Source) :
    IsClosed (styles (d.context source)) := by
  rw [context, styles, List.filterMap_append]
  apply IsClosed.append
  · exact isClosed_concat [.blue]
  · split
    · exact isClosed_nil
    · exact isClosed_concat [.blue, .reset, .blue, .reset, .reset, .blue]

theorem isClosed_remark (style : Style) (label text : String) :
    IsClosed (styles (remark style label text)) :=
  isClosed_concat [style]

/-- **The layout of a diagnostic ends its styles**, whichever parts it has. -/
theorem isClosed_layout (d : Diagnostic) (source : Option Source) :
    IsClosed (styles (d.layout source)) := by
  have hremarks (style : Style) (label : String) (texts : List String) :
      IsClosed (styles (texts.flatMap (remark style label))) := by
    rw [styles, List.filterMap_flatMap]
    exact isClosed_flatMap fun text _ => isClosed_remark style label text
  simp only [layout, styles, List.filterMap_append]
  refine .append (.append (.append d.isClosed_headline ?_) (hremarks _ _ _)) (hremarks _ _ _)
  cases source with
  | none => exact isClosed_nil
  | some source => exact d.isClosed_context source

theorem IsTame.colours_render {d : Diagnostic} (h : d.IsTame) {r : Rendering}
    (hs : ∀ s ∈ r.source, s.IsTame) :
    Colours (d.render (r.withColours true)) (d.render (r.withColours false)) :=
  colours_write (h.layout hs) (d.isClosed_layout r.source)

end Diagnostic

/-! ## Calls -/

/-- A call that switches colours. -/
inductive ColourCall
  | withoutColours
  | withColours (coloured : Bool)

/-- Whether a call asks for colours. -/
def ColourCall.coloured : ColourCall → Bool
  | withoutColours => false
  | withColours coloured => coloured

/-- A rendering after a call. -/
def ColourCall.apply (r : Rendering) : ColourCall → Rendering
  | withoutColours => r.withoutColours
  | withColours coloured => r.withColours coloured

/-- A rendering after some calls. -/
def Rendering.called (r : Rendering) (calls : List ColourCall) : Rendering :=
  calls.foldl ColourCall.apply r

/-- **The last call decides**, and without calls nothing changes. -/
theorem Rendering.called_eq (r : Rendering) (calls : List ColourCall) :
    r.called calls = r.withColours (calls.getLast?.elim r.coloured ColourCall.coloured) := by
  induction calls generalizing r with
  | nil => rfl
  | cons call calls ih =>
    have hcall : call.apply r = r.withColours call.coloured := by cases call <;> rfl
    have hcalled : r.called (call :: calls) = (call.apply r).called calls := rfl
    rw [hcalled, hcall, ih]
    cases calls with
    | nil => rfl
    | cons next rest => rw [List.getLast?_cons_cons, List.getLast?_cons]; rfl

/-- The rendering of diagnostics about a source of a collection. -/
def Sources.rendering (sources : Sources) (id : UInt32) : Rendering :=
  { source := sources.get? id }

/-- **Colours only decorate.** After any calls a rendering is the one that the last call asks for,
and coloured if there was none. With colours, a diagnostic and a report colour what they are
without, provided that no text among them holds an escape character. -/
theorem Sources.isColouring_render (sources : Sources) (id : UInt32) (calls : List ColourCall) :
    (sources.rendering id).called calls =
        (sources.rendering id).withColours (calls.getLast?.elim true ColourCall.coloured) ∧
      ((∀ s ∈ sources.get? id, s.IsTame) →
        (∀ d : Diagnostic, d.IsTame →
          IsColouring (d.render ((sources.rendering id).withColours true))
            (d.render ((sources.rendering id).withColours false))) ∧
        ∀ report : Report, (∀ d ∈ report.toList, d.IsTame) →
          IsColouring (report.render ((sources.rendering id).withColours true))
            (report.render ((sources.rendering id).withColours false))) := by
  refine ⟨(sources.rendering id).called_eq calls, fun hs => ⟨?_, ?_⟩⟩
  · intro d hd
    exact (hd.colours_render hs).isColouring
  · intro report hreport
    apply Colours.isColouring
    exact intercalate_map_rel (IsTame.colours (by decide)) .append (IsTame.colours (by decide))
      fun d hd => (hreport d hd).colours_render hs

/-- Colours are switched off and on again, for a warning about the first line of a file. -/
theorem Sources.isColouring_render_warning :
    let sources := (Sources.empty.add (.ofText "a.lox" "var x;\n@")).2
    let calls := [ColourCall.withoutColours, .withColours true]
    let d := ((Diagnostic.warning "unused variable").withLine 1).withNote "'x' is never read"
    IsColouring (d.render ((sources.rendering 0).called calls))
      (d.render (sources.rendering 0).withoutColours) := by
  intro sources calls d
  obtain ⟨hcalled, h⟩ := sources.isColouring_render 0 calls
  have hs : ∀ s ∈ sources.get? 0, s.IsTame := by
    rintro s ⟨⟩
    exact ⟨by decide, by decide⟩
  have hd : d.IsTame := by
    refine ⟨nofun, by decide, ?_, nofun⟩
    intro note hnote
    obtain rfl := List.mem_singleton.mp hnote
    decide
  rw [hcalled]
  exact (h hs).1 d hd

end Lox
