import Lox.Proofs.Concatenation
import Lox.Scan.Cursor

/-!
# The offsets of a cursor

A cursor divides its text in three: what is before the lexeme, the lexeme so far, and what is left.
As long as both offsets are the lengths of such parts, every slice exists, and what is read is the
beginning of what is left. So a step can be told from the next characters alone, and it either takes
one of them or leads on to a point that is nearer to the end of the lexeme.

## Main definitions

* `Cursor.At text s before lexeme rest`: a cursor between the three parts of its text
* `Point.Shows`: what a point says of the lexeme so far
* `Cursor.Stands`: a cursor that is where its point says

## Main results

* `Cursor.At.rest?_eq`, `Cursor.At.lexeme?_eq`: the slices exist
* `Cursor.Stands.leads`: a step takes a character or lowers the rank of the point
-/

namespace Lox.Cursor

open Text (byteLength)

variable {σ : Type} {text before lexeme rest : List Char} {listener : Listener σ} {s t : Cursor σ}
  {c : Char}

/-! ## The parts of the text -/

/-- The cursor behind a run of characters. -/
def past (run : List Char) (s : Cursor σ) : Cursor σ :=
  { s with current := s.current + byteLength run, line := lineAfter s.line run }

theorem forward_of_ne (hc : c ≠ '\n') (s : Cursor σ) : s.forward c = s.past [c] := by
  have hline : lineAfter s.line [c] = s.line := lineAfter_of_notMem (by simpa using hc.symm) _
  simp [forward, past, hline]

theorem forward_nextLine (s : Cursor σ) : s.nextLine.forward '\n' = s.past ['\n'] := rfl

/-- **A cursor between the parts of its text.** -/
structure At (text : List Char) (s : Cursor σ) (before lexeme rest : List Char) : Prop where
  text_eq : text = before ++ (lexeme ++ rest)
  start_eq : s.start = byteLength before
  current_eq : s.current = byteLength before + byteLength lexeme

namespace At

/-- Only the offsets matter. -/
theorem congr (h : At text s before lexeme rest) (hstart : t.start = s.start)
    (hcurrent : t.current = s.current) : At text t before lexeme rest :=
  ⟨h.text_eq, hstart.trans h.start_eq, hcurrent.trans h.current_eq⟩

/-- The lexeme grows by a character that is passed. -/
theorem forward (h : At text s before lexeme (c :: rest)) :
    At text (s.forward c) before (lexeme ++ [c]) rest where
  text_eq := by rw [h.text_eq, List.append_assoc, List.singleton_append]
  start_eq := h.start_eq
  current_eq := by simp [Cursor.forward, h.current_eq, Nat.add_assoc]

theorem past {run : List Char} (h : At text s before lexeme (run ++ rest)) :
    At text (s.past run) before (lexeme ++ run) rest where
  text_eq := by rw [h.text_eq, List.append_assoc]
  start_eq := h.start_eq
  current_eq := by simp [Cursor.past, h.current_eq, Nat.add_assoc]

/-- A lexeme begins where the one before it ends. -/
theorem opened (h : At text s before lexeme rest) :
    At text s.opened (before ++ lexeme) [] rest where
  text_eq := by rw [h.text_eq, List.nil_append, List.append_assoc]
  start_eq := by simp [Cursor.opened, h.current_eq]
  current_eq := by simp [Cursor.opened, h.current_eq]

/-- **What is left can be read.** -/
theorem rest?_eq (h : At text s before lexeme rest) : s.rest? text = some rest := by
  rw [rest?, h.text_eq, h.current_eq, ← Text.byteLength_append, ← List.append_assoc,
    Text.dropBytes?_append]

theorem peek?_eq (h : At text s before lexeme rest) : s.peek? text = some rest.head? := by
  rw [peek?, h.rest?_eq, Option.map_some]

theorem peekNext?_eq (h : At text s before lexeme rest) : s.peekNext? text = some rest[1]? := by
  rw [peekNext?, h.rest?_eq, Option.map_some]

/-- **The lexeme can be read.** -/
theorem lexeme?_eq (h : At text s before lexeme rest) : s.lexeme? text = some lexeme := by
  rw [lexeme?, h.text_eq, h.start_eq, h.current_eq, Text.slice?_append]

theorem advance?_cons (h : At text s before lexeme (c :: rest)) :
    s.advance? text = some (some c, s.forward c) := by
  rw [advance?, h.peek?_eq, Option.map_some, List.head?_cons]

theorem accept?_self (h : At text s before lexeme (c :: rest)) :
    s.accept? text c = some (true, s.forward c) := by
  simp [accept?, h.peek?_eq]

theorem accept?_of_stops (h : At text s before lexeme rest) (hs : Stops (· = c) rest) :
    s.accept? text c = some (false, s) := by
  have hne : rest.head? ≠ some c := by
    intro hc
    simpa using hs c hc
  simp [accept?, h.peek?_eq, hne]

/-- The expected character is there, or something else or nothing is. -/
theorem accept?_cases (h : At text s before lexeme rest) (c : Char) :
    (∃ rest', rest = c :: rest' ∧ s.accept? text c = some (true, s.forward c)) ∨
      s.accept? text c = some (false, s) := by
  by_cases hc : rest.head? = some c
  · obtain ⟨rest', rfl⟩ := List.head?_eq_some_iff.mp hc
    exact Or.inl ⟨rest', rfl, h.accept?_self⟩
  · right
    apply h.accept?_of_stops
    intro d hd
    rw [decide_eq_false_iff_not]
    rintro rfl
    exact hc hd

theorem emit?_eq (h : At text s before lexeme rest) (kind : Kind) (literal : Option Literal)
    (line : UInt32) : s.emit? text kind literal line =
      some ((s.push { kind, lexeme := String.ofList lexeme, literal, line }).goto .between) := by
  rw [emit?, h.lexeme?_eq, Option.map_some]

/-- **The value of a string can be read.** It stands between the quotation marks. -/
theorem body?_eq {body : List Char} (h : At text s before ('"' :: body ++ ['"']) rest) :
    Text.slice? (s.start + 1) (s.current - 1) text = some body := by
  have hquote : Char.utf8Size '"' = 1 := by decide
  refine Text.slice?_eq_some_iff.mpr ⟨before ++ ['"'], '"' :: rest, ?_, ?_, ?_⟩
  · simp [h.text_eq]
  · simp [h.start_eq, hquote]
  · simp [h.current_eq, hquote, Nat.add_assoc, Nat.add_comm 1]

/-- The quotation marks are one byte each, whatever stands between them. -/
example : Text.slice? (0 + 1) (4 - 1) ['"', 'é', '"'] = some ['é'] := by decide

/-- A character that satisfies `p` is passed. -/
theorem while?_cons (h : At text s before lexeme (c :: rest)) {p : Char → Bool} (hc : p c = true)
    (behind : Cursor σ → Option (Cursor σ)) :
    s.while? text p behind = some (s.forward c) := by
  simp [while?, h.peek?_eq, h.advance?_cons, hc]

/-- Where no such character follows, the loop is left. -/
theorem while?_of_stops (h : At text s before lexeme rest) {p : Char → Bool} (hs : Stops p rest)
    (behind : Cursor σ → Option (Cursor σ)) : s.while? text p behind = behind s := by
  have hstop : rest.head?.any p = false := by
    cases rest with
    | nil => rfl
    | cons c rest => exact hs c rfl
  simp [while?, h.peek?_eq, hstop]

/-- A point belongs to a number if a digit follows. -/
theorem point?_fraction {d : Char} (h : At text s before lexeme ('.' :: d :: rest))
    (hd : d.isDigit = true) :
    s.point? text listener = some ((s.forward '.').goto .fraction) := by
  simp [point?, h.peek?_eq, h.peekNext?_eq, h.advance?_cons, hd]

/-- Otherwise the number ends before it. -/
theorem point?_end (h : At text s before lexeme rest)
    (hp : ∀ d after, rest = '.' :: d :: after → d.isDigit = false) :
    s.point? text listener = s.emitNumber? text listener := by
  have hpoint : ¬ (rest.head? = some '.' ∧ rest[1]?.any Char.isDigit = true) := by
    rintro ⟨hhead, hnext⟩
    obtain ⟨after, rfl⟩ := List.head?_eq_some_iff.mp hhead
    cases after with
    | nil => cases hnext
    | cons d after =>
      rw [List.getElem?_cons_succ, List.getElem?_cons_zero, Option.any_some,
        hp d after rfl] at hnext
      cases hnext
  simp [point?, h.peek?_eq, h.peekNext?_eq, hpoint]

theorem string?_nil (h : At text s before lexeme []) (opened : UInt32) :
    s.string? text listener opened =
      some ((s.complain listener ⟨opened, .unterminated⟩).goto .between) := by
  simp [string?, h.peek?_eq]

theorem string?_quote (h : At text s before lexeme ('"' :: rest)) (opened : UInt32) :
    s.string? text listener opened = some ((s.forward '"').goto (.closed opened)) := by
  simp [string?, h.peek?_eq, h.advance?_cons]

theorem string?_cons (h : At text s before lexeme (c :: rest)) (hc : c ≠ '"') (opened : UInt32) :
    s.string? text listener opened = some (s.past [c]) := by
  by_cases hline : c = '\n'
  · subst hline
    have hnext : At text s.nextLine before lexeme ('\n' :: rest) := h.congr rfl rfl
    simp [string?, h.peek?_eq, hnext.advance?_cons, forward_nextLine]
  · simp [string?, h.peek?_eq, hc, hline, h.advance?_cons, forward_of_ne]

theorem emitString?_eq {body : List Char} (h : At text s before ('"' :: body ++ ['"']) rest)
    (opened : UInt32) : s.emitString? text opened =
      s.emit? text .string (some (.string (String.ofList body))) opened := by
  rw [emitString?, h.body?_eq, Option.bind_eq_bind, Option.bind_some]

/-- The table of reserved words tells the kind of a word. -/
theorem emitWord?_eq (h : At text s before lexeme rest) :
    s.emitWord? text = s.emit? text (Segment.wordKind lexeme) none s.line := by
  rw [emitWord?, h.lexeme?_eq, Option.bind_eq_bind, Option.bind_some]

end At

theorem byteLength_pos {run : List Char} (h : run ≠ []) : 0 < byteLength run := by
  obtain ⟨c, run, rfl⟩ := List.exists_cons_of_ne_nil h
  exact Nat.add_pos_left c.utf8Size_pos _

/-- There is more to read if and only if something is left. -/
theorem At.lt_iff (h : At text s before lexeme rest) :
    s.current < byteLength text ↔ rest ≠ [] := by
  rw [h.text_eq, h.current_eq, Text.byteLength_append, Text.byteLength_append, ← Nat.add_assoc]
  constructor
  · rintro hlt rfl
    exact Nat.lt_irrefl _ hlt
  · intro hrest
    exact Nat.lt_add_of_pos_right (byteLength_pos hrest)

end Lox.Cursor

namespace Lox

/-! ## Points -/

/-- **What a point says of the lexeme so far** and of what is left. -/
def Point.Shows (lexeme rest : List Char) : Point → Prop
  | .between | .comment | .whole | .fraction | .word => True
  | .opening => lexeme = [] ∧ rest ≠ []
  | .first c => lexeme = [c]
  | .string _ => ∃ body, lexeme = '"' :: body
  | .closed _ => ∃ body, lexeme = '"' :: body ++ ['"']
  | .finished => rest = []
  | .broken => False

/-- How many steps are left until a character is read, or none will be. -/
def Point.rank : Point → Nat
  | .opening | .finished | .broken => 0
  | .between => 1
  | .comment | .string _ | .closed _ | .whole | .fraction | .word => 2
  | .first _ => 3

theorem Point.rank_le (p : Point) : p.rank ≤ 3 := by cases p <;> simp [rank]

namespace Cursor

variable {σ : Type} {text before lexeme rest : List Char} {listener : Listener σ} {s t : Cursor σ}
  {c : Char}

/-- **A cursor that is where its point says.** -/
structure Stands (text : List Char) (s : Cursor σ) (before lexeme rest : List Char) : Prop
    extends At text s before lexeme rest where
  shows : s.point.Shows lexeme rest

/-- **Where a step leads** from a cursor with a text left: the step took a character, or the point
is of a lower rank. -/
def Leads (text : List Char) (s : Cursor σ) (rest : List Char) (t : Cursor σ) : Prop :=
  ∃ before lexeme rest', t.Stands text before lexeme rest' ∧
    ((∃ c, rest = c :: rest') ∨ (rest' = rest ∧ t.point.rank < s.point.rank))

theorem Leads.stay (h : At text t before lexeme rest) (hshows : t.point.Shows lexeme rest)
    (hrank : t.point.rank < s.point.rank) : Leads text s rest t :=
  ⟨before, lexeme, rest, ⟨h, hshows⟩, Or.inr ⟨rfl, hrank⟩⟩

theorem Leads.pass (h : At text t before lexeme rest) (hshows : t.point.Shows lexeme rest) :
    Leads text s (c :: rest) t :=
  ⟨before, lexeme, rest, ⟨h, hshows⟩, Or.inl ⟨c, rfl⟩⟩

/-! ## Steps -/

/-- What the first character leads to. -/
theorem exists_begin? (h : At text s before [c] rest) (hp : s.point = .first c) :
    ∃ t, s.begin? text listener c = some t ∧ Leads text s rest t := by
  have stay {t : Cursor σ} (hstart : t.start = s.start) (hcurrent : t.current = s.current)
      (hshows : t.point.Shows [c] rest) (hrank : t.point.rank < 3) : Leads text s rest t :=
    .stay (h.congr hstart hcurrent) hshows (by rw [hp]; exact hrank)
  unfold begin?
  split
  · exact ⟨_, h.emit?_eq _ _ _, stay rfl rfl trivial (by decide : 1 < 3)⟩
  · rcases h.accept?_cases '=' with ⟨rest', rfl, haccept⟩ | haccept
    · rw [haccept]
      exact ⟨_, h.forward.emit?_eq _ _ _, .pass (h.forward.congr rfl rfl) trivial⟩
    · rw [haccept]
      exact ⟨_, h.emit?_eq _ _ _, stay rfl rfl trivial (by decide : 1 < 3)⟩
  split
  · rcases h.accept?_cases '/' with ⟨rest', rfl, haccept⟩ | haccept
    · rw [haccept]
      exact ⟨_, rfl, .pass (h.forward.congr rfl rfl) trivial⟩
    · rw [haccept]
      exact ⟨_, h.emit?_eq _ _ _, stay rfl rfl trivial (by decide : 1 < 3)⟩
  split
  · exact ⟨_, rfl, stay rfl rfl trivial (by decide : 1 < 3)⟩
  split
  · exact ⟨_, rfl, stay rfl rfl trivial (by decide : 1 < 3)⟩
  split
  · next hc => exact ⟨_, rfl, stay rfl rfl ⟨[], by rw [hc]⟩ (by decide : 2 < 3)⟩
  split
  · exact ⟨_, rfl, stay rfl rfl trivial (by decide : 2 < 3)⟩
  split
  · exact ⟨_, rfl, stay rfl rfl trivial (by decide : 2 < 3)⟩
  · exact ⟨_, rfl, stay rfl rfl trivial (by decide : 1 < 3)⟩

/-- The end of a lexeme. -/
theorem exists_emit? {kind : Kind} {literal : Option Literal} {line : UInt32}
    (h : At text s before lexeme rest) (hrank : 1 < s.point.rank) :
    ∃ t, s.emit? text kind literal line = some t ∧ Leads text s rest t :=
  ⟨_, h.emit?_eq _ _ _, .stay (h.congr rfl rfl) trivial hrank⟩

/-- The end of a number. -/
theorem exists_emitNumber? (h : At text s before lexeme rest) (hrank : 1 < s.point.rank) :
    ∃ t, s.emitNumber? text listener = some t ∧ Leads text s rest t := by
  rw [emitNumber?, h.lexeme?_eq, Option.bind_eq_bind, Option.bind_some]
  cases Literal.readNumber? lexeme with
  | some value => exact exists_emit? h hrank
  | none => exact ⟨_, rfl, .stay (h.congr rfl rfl) trivial hrank⟩

/-- The end of a word. -/
theorem exists_emitWord? (h : At text s before lexeme rest) (hrank : 1 < s.point.rank) :
    ∃ t, s.emitWord? text = some t ∧ Leads text s rest t := by
  rw [h.emitWord?_eq]
  exact exists_emit? h hrank

/-- The end of a string. -/
theorem exists_emitString? {opened : UInt32} {body : List Char}
    (h : At text s before ('"' :: body ++ ['"']) rest) (hrank : 1 < s.point.rank) :
    ∃ t, s.emitString? text opened = some t ∧ Leads text s rest t := by
  rw [h.emitString?_eq]
  exact exists_emit? h hrank

/-- A round of a loop takes a character, or does what is done behind the loop. -/
theorem exists_while? {p : Char → Bool} {behind : Cursor σ → Option (Cursor σ)}
    (h : At text s before lexeme rest)
    (hshows : ∀ c rest', s.point.Shows (lexeme ++ [c]) rest')
    (hbehind : ∃ t, behind s = some t ∧ Leads text s rest t) :
    ∃ t, s.while? text p behind = some t ∧ Leads text s rest t := by
  cases rest with
  | nil => rwa [h.while?_of_stops stops_nil]
  | cons c rest =>
    cases hc : p c with
    | true => exact ⟨_, h.while?_cons hc behind, .pass h.forward (hshows c rest)⟩
    | false => rwa [h.while?_of_stops (stops_cons hc)]

/-- A point behind digits, or the end of a number. -/
theorem exists_point? (h : At text s before lexeme rest) (hrank : 1 < s.point.rank) :
    ∃ t, s.point? text listener = some t ∧ Leads text s rest t := by
  by_cases hpoint : ∃ d after, rest = '.' :: d :: after ∧ d.isDigit = true
  · obtain ⟨d, after, rfl, hd⟩ := hpoint
    exact ⟨_, h.point?_fraction hd, .pass (h.forward.congr rfl rfl) trivial⟩
  · rw [h.point?_end fun d after hrest => by simpa [hrest] using hpoint]
    exact exists_emitNumber? h hrank

/-- A round of the loop over a string. -/
theorem exists_string? {opened : UInt32} {body : List Char}
    (h : At text s before ('"' :: body) rest) (hp : s.point = .string opened) :
    ∃ t, s.string? text listener opened = some t ∧ Leads text s rest t := by
  cases rest with
  | nil =>
    exact ⟨_, h.string?_nil opened, .stay (h.congr rfl rfl) trivial (hp ▸ Nat.one_lt_two)⟩
  | cons c rest =>
    by_cases hc : c = '"'
    · subst hc
      exact ⟨_, h.string?_quote opened, .pass (h.forward.congr rfl rfl) ⟨body, rfl⟩⟩
    · exact ⟨_, h.string?_cons hc opened, .pass h.past (hp ▸ ⟨body ++ [c], rfl⟩)⟩

/-- **A step reads only what exists.** -/
theorem Stands.exists_move? (h : s.Stands text before lexeme rest) (hp : s.point ≠ .finished) :
    ∃ t, s.move? text listener = some t ∧ Leads text s rest t := by
  have hat := h.toAt
  have hshows := h.shows
  unfold move?
  cases hpoint : s.point with rw [hpoint] at hshows
  | between =>
    by_cases hrest : rest = []
    · rw [if_neg (mt hat.lt_iff.mp (not_not.mpr hrest))]
      exact ⟨_, rfl, .stay (hat.congr rfl rfl) hrest (hpoint ▸ Nat.one_pos)⟩
    · rw [if_pos (hat.lt_iff.mpr hrest)]
      exact ⟨_, rfl, .stay hat.opened ⟨rfl, hrest⟩ (hpoint ▸ Nat.one_pos)⟩
  | opening =>
    obtain ⟨rfl, hrest⟩ := hshows
    obtain ⟨c, rest, rfl⟩ := List.exists_cons_of_ne_nil hrest
    rw [hat.advance?_cons]
    exact ⟨_, rfl, .pass (hat.forward.congr rfl rfl) rfl⟩
  | first c =>
    obtain rfl : lexeme = [c] := hshows
    exact exists_begin? hat hpoint
  | comment =>
    exact exists_while? hat (hpoint ▸ fun _ _ => trivial)
      ⟨_, rfl, .stay (hat.congr rfl rfl) trivial (hpoint ▸ Nat.one_lt_two)⟩
  | string opened =>
    obtain ⟨body, rfl⟩ := hshows
    exact exists_string? hat hpoint
  | closed opened =>
    obtain ⟨body, rfl⟩ := hshows
    exact exists_emitString? hat (hpoint ▸ Nat.one_lt_two)
  | whole =>
    exact exists_while? hat (hpoint ▸ fun _ _ => trivial)
      (exists_point? hat (hpoint ▸ Nat.one_lt_two))
  | fraction =>
    exact exists_while? hat (hpoint ▸ fun _ _ => trivial)
      (exists_emitNumber? hat (hpoint ▸ Nat.one_lt_two))
  | word =>
    exact exists_while? hat (hpoint ▸ fun _ _ => trivial)
      (exists_emitWord? hat (hpoint ▸ Nat.one_lt_two))
  | finished => exact absurd hpoint hp
  | broken => exact hshows.elim

theorem step_of_move? (hmove : s.move? text listener = some t)
    (hp : s.point ≠ .finished ∧ s.point ≠ .broken) : s.step text listener = some t := by
  rw [step, if_neg (not_or.mpr hp), hmove, Option.getD_some]

/-- **A step takes a character or lowers the rank of the point.** -/
theorem Stands.leads (h : s.Stands text before lexeme rest)
    (hstep : s.step text listener = some t) : Leads text s rest t := by
  have hp : s.point ≠ .finished ∧ s.point ≠ .broken := by
    rw [step] at hstep
    split at hstep
    · cases hstep
    · next hp => exact not_or.mp hp
  obtain ⟨u, hmove, hleads⟩ := h.exists_move? hp.1
  obtain rfl := Option.some.inj ((step_of_move? hmove hp).symm.trans hstep)
  exact hleads

end Cursor

end Lox
