import Lox.Proofs.LineEnds
import Lox.Proofs.Numerals

/-!
# Texts of numbers

A number is shown with a point and at least one digit on both sides of it, and is read again from
this text. An integer is shown exactly, and any other number with a decimal of the fewest places
from which it is read again.

## Main results

* `Number.Decimal.parse?_text`: the text of a decimal is read as the decimal
* `Number.Binary64.shortest_cases`: which decimal is the shortest
* `Number.Binary64.toBinary64_shortest`: a finite number is read again from its shortest decimal
* `Number.Binary64.decimalValue_shortest`: an integer is shown exactly
* `Number.Binary64.places_shortest_le`: no decimal with fewer places is read as the number
* `scan_text_number`: in the text of a number, a scan finds the number and nothing else
-/

namespace Lox

namespace Number

/-! ## The text of a decimal -/

namespace Decimal

theorem ofDigitChars_lastDigits (places n : ℕ) :
    Nat.ofDigitChars 10 (lastDigits places n) 0 = n % 10 ^ places := by
  induction places generalizing n with
  | zero => simp [lastDigits, Nat.mod_one]
  | succ places ih =>
    rw [lastDigits, Nat.ofDigitChars_append, ih,
      Nat.ofDigitChars_cons_digitChar_of_lt_ten (Nat.mod_lt n (by decide)), Nat.ofDigitChars_nil,
      Nat.pow_succ', Nat.mod_mul, Nat.add_comm]

/-- **The text of a decimal with places** has digits on both sides of the point. -/
theorem exists_digits_text {d : Decimal} (h : 0 < d.places) : ∃ ds es, ds ≠ [] ∧ es ≠ [] ∧
    (∀ c ∈ ds, IsDigit c) ∧ (∀ c ∈ es, IsDigit c) ∧ d.text = ds ++ '.' :: es ∧
    parse? (ds ++ '.' :: es) = some d := by
  have whole : ∀ c ∈ Nat.toDigits 10 (d.digits / Nat.pow 10 d.places), c.isDigit = true :=
    fun c hc => Nat.isDigit_of_mem_toDigits (by decide) (by decide) hc
  have places : ∀ c ∈ lastDigits d.places d.digits, c.isDigit = true :=
    fun c hc => isDigit_of_mem_lastDigits hc
  have hne : lastDigits d.places d.digits ≠ [] := by
    rwa [← List.length_pos_iff, length_lastDigits]
  refine ⟨_, _, Nat.toDigits_ne_nil, hne, forall_isDigit_iff.mp whole, forall_isDigit_iff.mp places,
    rfl, ?_⟩
  have hdigits : Nat.ofDigitChars 10 (Nat.toDigits 10 (d.digits / Nat.pow 10 d.places) ++
      lastDigits d.places d.digits) 0 = d.digits := by
    rw [Nat.ofDigitChars_append, Nat.ofDigitChars_eq_ofDigitChars_zero,
      Nat.ofDigitChars_ten_toDigits, length_lastDigits, ofDigitChars_lastDigits]
    exact Nat.div_add_mod _ _
  rw [parse?_fraction Nat.toDigits_ne_nil hne whole places, hdigits, length_lastDigits]

/-- **The text of a decimal is read as the decimal.** -/
theorem parse?_text {d : Decimal} (h : 0 < d.places) : parse? d.text = some d := by
  obtain ⟨ds, es, -, -, -, -, htext, hparse⟩ := exists_digits_text h
  rw [htext, hparse]

/-- The text of a decimal denotes it. -/
theorem decimalValue_text {d : Decimal} (h : 0 < d.places) :
    decimalValue d.text = d.digits / 10 ^ d.places := by
  obtain ⟨ds, es, hne, hne', hds, hes, htext, -⟩ := exists_digits_text h
  obtain ⟨d', hd', hvalue⟩ := (IsNumber.fraction hne hne' hds hes).exists_decimal
  rw [← htext, parse?_text h] at hd'
  obtain rfl := Option.some.inj hd'
  rw [htext, hvalue]

end Decimal

/-! ## The shortest decimal -/

namespace Binary64

variable {x : Binary64} {d : Decimal}

theorem places_of_mem_neighbours {places : ℕ} (h : d ∈ x.neighbours places) :
    d.places = places := by
  simp only [neighbours] at h
  split at h
  · rcases List.mem_pair.mp h with rfl | rfl <;> rfl
  · rcases List.mem_pair.mp h with rfl | rfl <;> rfl

theorem places_of_readBack? {places : ℕ} (h : x.readBack? places = some d) : d.places = places :=
  places_of_mem_neighbours (List.mem_of_find?_eq_some h)

/-- The decimal that equals a number is read as the number. -/
theorem toBinary64_exact (h : x.isFinite = true) : x.exact.toBinary64 = x.abs := by
  have hone : one = 1 <<< 1074 := one.eq_1
  rw [exact]
  -- a unit has as many decimal places as binary ones
  generalize 1074 = places at hone ⊢
  refine ofRatio_eq_abs _ (Nat.pow_pos (by decide)) h ?_
  rw [hone, Nat.one_shiftLeft, Nat.mul_assoc]
  exact congrArg (x.units * ·) (Nat.mul_pow 5 2 places).symm

theorem units_div_mul_one (h : x.isWhole = true) : x.units / one * one = x.units :=
  Nat.div_mul_cancel (Nat.dvd_of_mod_eq_zero (of_decide_eq_true h))

/-- **Which decimal is the shortest**: that of an integer, the first one that is read back, or the
one that equals the number. -/
theorem shortest_cases (x : Binary64) :
    (x.isWhole = true ∧ x.shortest = ⟨x.units / one * 10, 1⟩) ∨
    (∃ places, 0 < places ∧ x.readBack? places = some x.shortest ∧
      ∀ fewer, 0 < fewer → fewer < places → x.readBack? fewer = none) ∨
    (x.shortest = x.exact ∧ ∀ fewer, 0 < fewer → fewer < 1074 → x.readBack? fewer = none) := by
  unfold shortest
  split
  · next hwhole => exact .inl ⟨hwhole, rfl⟩
  · right
    cases hfound : (List.range' 1 1073).findSome? x.readBack? with
    | none =>
      exact .inr ⟨rfl, fun fewer hpos hlt =>
        List.findSome?_eq_none_iff.mp hfound fewer (List.mem_range'_1.mpr ⟨hpos, hlt⟩)⟩
    | some d =>
      -- the places are tried in order, so that fewer of them were tried in vain
      obtain ⟨before, places, after, hrange, hd, hnone⟩ := List.findSome?_eq_some_iff.mp hfound
      have hmem : places ∈ List.range' 1 1073 := by simp [hrange]
      obtain ⟨hpos, hlast⟩ := List.mem_range'_1.mp hmem
      refine .inl ⟨places, hpos, hd, fun fewer hfewer hlt => hnone fewer ?_⟩
      have htried : fewer ∈ List.range' 1 1073 := List.mem_range'_1.mpr ⟨hfewer, hlt.trans hlast⟩
      have hsorted : List.Pairwise (· < ·) (List.range' 1 1073) := List.pairwise_lt_range' 1
      rw [hrange] at htried hsorted
      have hbehind := (List.pairwise_cons.mp (List.pairwise_append.mp hsorted).2.1).1
      rcases List.mem_append.mp htried with htried | htried
      · exact htried
      · rcases List.mem_cons.mp htried with heq | htried
        · exact absurd heq hlt.ne
        · exact absurd (hbehind fewer htried) hlt.asymm

/-- **A finite number is read again from its shortest decimal.** -/
theorem toBinary64_shortest (h : x.isFinite = true) : x.shortest.toBinary64 = x.abs := by
  rcases x.shortest_cases with ⟨hwhole, hshortest⟩ | ⟨places, -, hread, -⟩ | ⟨hexact, -⟩
  · rw [hshortest]
    refine ofRatio_eq_abs (x.units / one * 10) (show 0 < 10 by decide) h ?_
    rw [Nat.mul_right_comm, units_div_mul_one hwhole]
  · exact toBinary64_of_readBack? hread
  · rw [hexact, toBinary64_exact h]

theorem places_shortest_pos (x : Binary64) : 0 < x.shortest.places := by
  rcases x.shortest_cases with ⟨-, hshortest⟩ | ⟨places, hpos, hread, -⟩ | ⟨hexact, -⟩
  · rw [hshortest]
    exact Nat.one_pos
  · rwa [places_of_readBack? hread]
  · rw [hexact]
    exact Nat.succ_pos 1073

theorem mem_neighbours (x : Binary64) {places n : ℕ} (h : n = x.units * Nat.pow 10 places / one ∨
    n = x.units * Nat.pow 10 places / one + 1) : ⟨n, places⟩ ∈ x.neighbours places := by
  simp only [neighbours]
  split
  · rcases h with rfl | rfl <;> simp
  · rcases h with rfl | rfl <;> simp

/-- What is rounded lies between two quotients that are rounded to the same number. -/
theorem ofRatio_eq_of_between {a b m n k l : ℕ} (hb : 0 < b) (hn : 0 < n) (hl : 0 < l)
    (hlow : a * n ≤ m * b) (hhigh : m * l ≤ k * n) (heq : ofRatio a b = ofRatio k l) :
    ofRatio m n = ofRatio k l := by
  have hle := toNat_bits_ofRatio_le hb hn hlow
  rw [heq] at hle
  apply congrArg Binary64.mk
  exact UInt64.toNat_inj.mp ((toNat_bits_ofRatio_le hn hl hhigh).antisymm hle)

/-- **If any decimal of so many places is read as the number, one of the neighbours is.** -/
theorem exists_readBack? (hx : x.isFinite = true) (hd : d.toBinary64 = x.abs) :
    ∃ d', x.readBack? d.places = some d' := by
  have hone : 0 < one := by exact_mod_cast cast_one_pos
  have hten : 0 < Nat.pow 10 d.places := Nat.pow_pos (by decide)
  have hself : ofRatio x.units one = x.abs := ofRatio_eq_abs x.units hone hx rfl
  have found {n : ℕ} (hn : n = x.units * Nat.pow 10 d.places / one ∨
      n = x.units * Nat.pow 10 d.places / one + 1)
      (hr : ofRatio n (Nat.pow 10 d.places) = x.abs) : ∃ d', x.readBack? d.places = some d' :=
    Option.isSome_iff_exists.mp
      (List.find?_isSome.mpr ⟨⟨n, d.places⟩, x.mem_neighbours hn, decide_eq_true hr⟩)
  -- the neighbour on the side of `d` lies between `d` and the number
  rcases Nat.lt_or_ge (x.units * Nat.pow 10 d.places / one) d.digits with hlt | hle
  · apply found (.inr rfl)
    have habove := (Nat.div_lt_iff_lt_mul hone).mp
      (Nat.lt_succ_self (x.units * Nat.pow 10 d.places / one))
    have hbetween := ofRatio_eq_of_between hone hten hten habove.le (Nat.mul_le_mul_right _ hlt)
      (hself.trans hd.symm)
    exact hbetween.trans hd
  · apply found (.inl rfl)
    have hbetween := ofRatio_eq_of_between hten hten hone (Nat.mul_le_mul_right _ hle)
      (Nat.div_mul_le_self _ one) (hd.trans hself.symm)
    exact hbetween.trans hself

/-- **No decimal with fewer places is read as the number.** The shortest one has at least one. -/
theorem places_shortest_le (hx : x.isFinite = true) (hd : d.toBinary64 = x.abs)
    (hpos : 0 < d.places) : x.shortest.places ≤ d.places := by
  obtain ⟨d', hread⟩ := exists_readBack? hx hd
  rcases x.shortest_cases with ⟨-, hshortest⟩ | ⟨places, -, hchosen, hnone⟩ | ⟨hexact, hnone⟩
  · rw [hshortest]
    exact hpos
  · rw [places_of_readBack? hchosen]
    by_contra! hlt
    rw [hnone d.places hpos hlt] at hread
    cases hread
  · rw [hexact]
    by_contra! hlt
    rw [hnone d.places hpos hlt] at hread
    cases hread

/-- **An integer is shown exactly.** -/
theorem decimalValue_shortest (h : x.isWhole = true) :
    decimalValue x.shortest.text = |x.value| := by
  have hunits : ((x.units / one : ℕ) : ℚ) = x.unsignedValue := by
    apply mul_right_cancel₀ cast_one_pos.ne'
    rw [← units_eq_unsignedValue]
    exact_mod_cast units_div_mul_one h
  rw [Decimal.decimalValue_text x.places_shortest_pos, shortest, if_pos h, abs_value, ← hunits,
    Nat.cast_mul, pow_one]
  exact mul_div_cancel_right₀ _ (by norm_num)

/-- The text of a finite number. -/
theorem text_of_isFinite (h : x.isFinite = true) :
    x.text = (if x.isNegative then ['-'] else []) ++ x.shortest.text := by
  have hnan : x.isNaN = false :=
    decide_eq_false (Nat.not_lt_of_le (of_decide_eq_true (p := _ < _) h).le)
  rw [text, hnan, if_neg Bool.false_ne_true, if_pos h]

end Binary64

end Number

/-! ## The scan of a text -/

open Number (Binary64 Decimal)

/-- **A finite number is found again in its text.** The text has a sign if the number has one, and
behind it digits on both sides of a point. In these a scan finds one number, which has the same bits
but for the sign, and nothing else. -/
theorem scan_text_number (v : Binary64) (h : v.isFinite = true) : ∃ ds es, ds ≠ [] ∧ es ≠ [] ∧
    (∀ d ∈ ds, IsDigit d) ∧ (∀ e ∈ es, IsDigit e) ∧
    (Literal.number v).text.toList =
      (if v.isNegative then ['-'] else []) ++ (ds ++ '.' :: es) ∧
    (scan (String.ofList (ds ++ '.' :: es))).report.toList = [] ∧
    (scan (String.ofList (ds ++ '.' :: es))).tokens =
      [⟨.number, String.ofList (ds ++ '.' :: es), some (.number v.abs), 1⟩, .eof 1] := by
  obtain ⟨ds, es, hne, hne', hds, hes, htext, -⟩ :=
    Decimal.exists_digits_text v.places_shortest_pos
  have hvalue : Literal.readNumber? (ds ++ '.' :: es) = some (.number v.abs) := by
    rw [Literal.readNumber?, ← htext, Decimal.parse?_text v.places_shortest_pos,
      Option.map_some, Binary64.toBinary64_shortest h]
  let lexeme : Lexeme := ⟨.number, ds ++ '.' :: es, .number (.fraction hne hne' hds hes)⟩
  refine ⟨ds, es, hne, hne', hds, hes, ?_, ?_, ?_⟩
  · rw [Literal.text, String.toList_ofList, Binary64.text_of_isFinite h, htext]
  · rw [scan_report]
    exact congrArg (List.map Fault.diagnostic) (faults_layout (.last lexeme))
  · have hkind : Kind.number ≠ .string := by decide
    have hlines : (ds ++ '.' :: es).count '\n' = 0 :=
      List.count_eq_zero.mpr ((lexeme.isLexeme.fits endsLexeme_nil).lineFeed_notMem hkind)
    have htokens : tokens (String.ofList (ds ++ '.' :: es)) = [lexeme.token 1] ++
        [.eof (UInt32.ofNat (1 + (ds ++ '.' :: es).count '\n'))] := tokens_layout (.last lexeme)
    rw [scan_tokens, htokens, hlines, Lexeme.token]
    exact congrArg (fun value => [(⟨.number, _, value, 1⟩ : Token), .eof 1]) hvalue

/-- The zero with a sign is shown with it, and what is found in the text is the other zero. -/
theorem scan_text_negative_zero : Binary64.isFinite ⟨0x8000000000000000⟩ = true ∧
    (Literal.number ⟨0x8000000000000000⟩).text = "-0.0" ∧ (scan "0.0").report.toList = [] ∧
    (scan "0.0").tokens = [⟨.number, "0.0", some (.number ⟨0⟩), 1⟩, .eof 1] := by
  have finite : Binary64.isFinite ⟨0x8000000000000000⟩ = true := by decide
  have text : (Literal.number ⟨0x8000000000000000⟩).text = "-0.0" := by decide +kernel
  obtain ⟨ds, es, -, -, -, -, htext, hreport, htokens⟩ := scan_text_number _ finite
  rw [text] at htext
  have hdigits : String.ofList (ds ++ '.' :: es) = "0.0" := by
    apply String.toList_injective
    rw [String.toList_ofList]
    exact (List.cons.inj htext).2.symm
  rw [hdigits] at hreport htokens
  exact ⟨finite, text, hreport, htokens⟩

end Lox
