import DocGuard.Json.Scan
import DocGuard.Proofs.Json.Grammar

/-! A scan passes over each part of a JSON text: of a text that the grammar has, a scan leaves what
the grammar leaves. -/
namespace DocGuard.Json
variable {s t u : List Char}

/-- A value ends here: before a blank, a separator or an end, or at the end of the text. -/
def Ends (t : List Char) : Prop :=
  ∀ c rest, t = c :: rest → isBlank c = true ∨ c = ',' ∨ c = ']' ∨ c = '\x7d'

theorem isBlank_iff {c : Char} : isBlank c = true ↔ c ∈ [' ', '\t', '\n', '\r'] := by
  simp [isBlank, or_assoc]

section Blanks

theorem SpansBlanks.dropBlanks_eq (h : SpansBlanks s t) : dropBlanks s = dropBlanks t := by
  induction h with
  | none s => rfl
  | more blank _ ih =>
    rw [← ih]
    exact List.dropWhile_cons_of_pos (isBlank_iff.2 blank)

theorem SpansBlanks.dropBlanks_cons {c : Char} (h : SpansBlanks s (c :: t))
    (solid : isBlank c = false) : dropBlanks s = c :: t := by
  rw [h.dropBlanks_eq]
  exact List.dropWhile_cons_of_neg (by simp [solid])

theorem SpansBlanks.length_le (h : SpansBlanks s t) : t.length ≤ s.length := by
  induction h with
  | none s => exact Nat.le_refl _
  | more _ _ ih => exact Nat.le_succ_of_le ih

/-- Blanks before a separator or an end make an end of a value. -/
theorem SpansBlanks.ends {c : Char} (h : SpansBlanks s (c :: t))
    (mark : c = ',' ∨ c = ']' ∨ c = '\x7d') : Ends s := by
  generalize same : c :: t = left at h
  intro first rest whole
  cases h with
  | none _ =>
    cases same.trans whole
    exact .inr mark
  | more blank _ =>
    cases whole
    exact .inl (isBlank_iff.2 blank)

end Blanks

section Numbers

theorem SpansDigits.length_le (h : SpansDigits s t) : t.length ≤ s.length := by
  induction h with
  | none s => exact Nat.le_refl _
  | more _ _ ih => exact Nat.le_succ_of_le ih

private theorem SpansDigits.dropDigits_eq (h : SpansDigits s t) (stop : startsWithDigit t = false) :
    dropDigits s = t := by
  induction h with
  | none s =>
    cases s with
    | nil => rfl
    | cons c rest => exact List.dropWhile_cons_of_neg (by simpa [startsWithDigit] using stop)
  | more digit _ ih =>
    rw [← ih stop]
    exact List.dropWhile_cons_of_pos digit

/-- What ends a value is neither a digit nor a point nor the letter of an exponent. -/
theorem Ends.head {c : Char} {rest : List Char} (h : Ends (c :: rest)) :
    c.isDigit = false ∧ c ≠ '.' ∧ c ≠ 'e' ∧ c ≠ 'E' := by
  have marks : c ∈ [' ', '\t', '\n', '\r', ',', ']', '\x7d'] := by
    rcases h c rest rfl with blank | rfl | rfl | rfl
    · exact List.mem_append_left [',', ']', '\x7d'] (isBlank_iff.1 blank)
    all_goals simp
  revert marks
  simp only [List.mem_cons, List.not_mem_nil, or_false]
  rintro (rfl | rfl | rfl | rfl | rfl | rfl | rfl) <;> decide

private theorem Ends.startsWithDigit_eq (h : Ends t) : startsWithDigit t = false := by
  cases t with
  | nil => rfl
  | cons c rest => simpa [startsWithDigit] using h.head.1

private theorem skipExponentDigits_eq {c : Char} (digit : c.isDigit = true) (h : SpansDigits s t)
    (ends : Ends t) : skipExponentDigits (c :: s) = .ok t := by
  simp [skipExponentDigits, digit, h.dropDigits_eq ends.startsWithDigit_eq]

theorem SpansExponent.skip_eq (h : SpansExponent s t) (ends : Ends t) :
    skipExponent s = .ok t := by
  cases h with
  | none _ =>
    cases s with
    | nil => rfl
    | cons c rest =>
      obtain ⟨-, -, small, capital⟩ := ends.head
      simp [skipExponent, small, capital]
  | unsigned letter digit digits =>
    have skipped := skipExponentDigits_eq digit digits ends
    simp only [List.mem_cons, List.not_mem_nil, or_false] at letter
    simp only [skipExponent, letter, if_true]
    -- a sign is no digit
    split
    case h_1 same =>
      cases same
      cases digit
    case h_2 same =>
      cases same
      cases digit
    case h_3 => exact skipped
  | signed letter sign digit digits =>
    have skipped := skipExponentDigits_eq digit digits ends
    simp only [List.mem_cons, List.not_mem_nil, or_false] at letter sign
    rcases sign with rfl | rfl <;> simp [skipExponent, letter, skipped]

theorem SpansExponent.noDigit (h : SpansExponent s t) (ends : Ends t) :
    startsWithDigit s = false := by
  cases h with
  | none _ => exact ends.startsWithDigit_eq
  | unsigned letter _ _ =>
    simp only [List.mem_cons, List.not_mem_nil, or_false] at letter
    rcases letter with rfl | rfl <;> rfl
  | signed letter _ _ _ =>
    simp only [List.mem_cons, List.not_mem_nil, or_false] at letter
    rcases letter with rfl | rfl <;> rfl

theorem SpansFraction.skip_eq (h : SpansFraction s u) (g : SpansExponent u t) (ends : Ends t) :
    skipFraction s = .ok t := by
  have exponent := g.skip_eq ends
  cases h with
  | none _ =>
    cases s with
    | nil => exact exponent
    | cons c rest =>
      have noPoint : c ≠ '.' := by
        rintro rfl
        cases g with
        | none _ => exact ends.head.2.1 rfl
        | unsigned letter _ _ => simp at letter
        | signed letter _ _ _ => simp at letter
      simp [skipFraction, noPoint, exponent]
  | digits digit digits =>
    have dropped := (SpansDigits.more digit digits).dropDigits_eq (g.noDigit ends)
    simp [skipFraction, startsWithDigit, digit, dropped, exponent]

theorem SpansFraction.noDigit (h : SpansFraction s u) (g : SpansExponent u t) (ends : Ends t) :
    startsWithDigit s = false := by
  cases h with
  | none _ => exact g.noDigit ends
  | digits _ _ => rfl

theorem SpansNumber.skip_eq (h : SpansNumber s t) (ends : Ends t) : skipNumber s = .ok t := by
  obtain ⟨whole, fraction, exponent⟩ := h
  have skipped := fraction.skip_eq exponent ends
  have stop := fraction.noDigit exponent ends
  cases whole with
  | zero _ => simp [skipNumber, stop, skipped]
  | digits digit nonzero digits =>
    simp [skipNumber, nonzero, digit, digits.dropDigits_eq stop, skipped]

theorem SpansNumber.head (h : SpansNumber s t) :
    ∃ c rest, s = c :: rest ∧ c.isDigit = true := by
  obtain ⟨whole, -, -⟩ := h
  cases whole with
  | zero _ => exact ⟨_, _, rfl, rfl⟩
  | digits digit _ _ => exact ⟨_, _, rfl, digit⟩

theorem SpansExponent.length_le (h : SpansExponent s t) : t.length ≤ s.length := by
  cases h with
  | none _ => exact Nat.le_refl _
  | unsigned _ _ digits =>
    have shorter := digits.length_le
    simp only [List.length_cons]
    omega
  | signed _ _ _ digits =>
    have shorter := digits.length_le
    simp only [List.length_cons]
    omega

theorem SpansFraction.length_le (h : SpansFraction s t) : t.length ≤ s.length := by
  cases h with
  | none _ => exact Nat.le_refl _
  | digits _ digits =>
    have shorter := digits.length_le
    simp only [List.length_cons]
    omega

theorem SpansNumber.length_lt (h : SpansNumber s t) : t.length < s.length := by
  obtain ⟨whole, fraction, exponent⟩ := h
  have first := fraction.length_le
  have second := exponent.length_le
  cases whole with
  | zero _ =>
    simp only [List.length_cons]
    omega
  | digits _ _ digits =>
    have shorter := digits.length_le
    simp only [List.length_cons]
    omega

end Numbers

section Strings

private theorem hexDigit?_of_isHex {c : Char} {n : Nat} (h : IsHex c n) : hexDigit? c = some n := by
  obtain ⟨small, spelled⟩ := h
  have table : ∀ n < 16, hexDigit? (Nat.digitChar n) = some n ∧
      hexDigit? (Nat.digitChar n).toUpper = some n := by
    decide
  rcases spelled with rfl | rfl
  · exact (table n small).1
  · exact (table n small).2

private theorem hexNumber?_of_isHexNumber {a b c d : Char} {n : Nat} (h : IsHexNumber a b c d n) :
    hexNumber? a b c d = some n := by
  obtain ⟨w, x, y, z, first, second, third, fourth, rfl⟩ := h
  simp [hexNumber?, hexDigit?_of_isHex first, hexDigit?_of_isHex second, hexDigit?_of_isHex third,
    hexDigit?_of_isHex fourth]

/-- Four digits take at least four bytes, whatever follows them. -/
theorem readHex_eq {a b c d : Char} {n : Nat} (h : IsHexNumber a b c d n) :
    readHex (a :: b :: c :: d :: s) = .ok n := by
  have long : ¬ Text.utf8Size (a :: b :: c :: d :: s) < 4 := by
    have one := a.utf8Size_pos
    have two := b.utf8Size_pos
    have three := c.utf8Size_pos
    have four := d.utf8Size_pos
    simp only [Text.utf8Size, List.map_cons, List.foldr_cons]
    omega
  simp [readHex, long, hexNumber?_of_isHexNumber h]

theorem escaped?_of_letter {c d : Char} (h : (c, d) ∈ escapeLetters) : escaped? c = some d := by
  have table : ∀ pair ∈ escapeLetters, escaped? pair.1 = some pair.2 := by
    decide
  exact table _ h

theorem letter_ne_u {c d : Char} (h : (c, d) ∈ escapeLetters) : c ≠ 'u' := by
  have table : ∀ pair ∈ escapeLetters, pair.1 ≠ 'u' := by
    decide
  exact table _ h

theorem SpansString.skip_eq (h : SpansString s t) : skipString 0 s = .ok t := by
  induction h with
  | close t => rfl
  | plain quote backslash control _ ih =>
    have printable := Char.not_lt.2 control
    simp [skipString, quote, backslash, printable, ih]
  | letter among _ ih =>
    have scanned := escaped?_of_letter among
    simp [skipString, scanEscape, letter_ne_u among, scanned, ih, Bind.bind, Except.bind]
  | number digits _ ih =>
    simp [skipString, scanEscape, readHex_eq digits, ih, Bind.bind, Except.bind, Pure.pure,
      Except.pure]

theorem SpansString.length_lt (h : SpansString s t) : t.length < s.length := by
  induction h with
  | close t => exact Nat.lt_succ_self _
  | plain _ _ _ _ ih =>
    simp only [List.length_cons]
    omega
  | letter _ _ ih =>
    simp only [List.length_cons]
    omega
  | number _ _ ih =>
    simp only [List.length_cons]
    omega

end Strings

section Values
variable {form : Form}

def Form.skip : Form → Nat → List Char → Except Fault (List Char)
  | value => skipValueWithin
  | elements => skipElementsWithin
  | members => skipMembersWithin

/-- A part starts neither with a blank nor with the end of a list or an object. -/
theorem Spans.head (h : Spans form s t) :
    ∃ c rest, s = c :: rest ∧ isBlank c = false ∧ c ≠ ']' ∧ c ≠ '\x7d' := by
  induction h with
  | nullWord t | trueWord t | falseWord t => exact ⟨_, _, rfl, by decide, by decide, by decide⟩
  | number number =>
    obtain ⟨c, rest, rfl, digit⟩ := number.head
    refine ⟨c, rest, rfl, ?_, ?_, ?_⟩
    · cases blank : isBlank c with
      | false => rfl
      | true =>
        have among := isBlank_iff.1 blank
        simp only [List.mem_cons, List.not_mem_nil, or_false] at among
        rcases among with rfl | rfl | rfl | rfl <;> cases digit
    · rintro rfl
      cases digit
    · rintro rfl
      cases digit
  | negative _ | string _ | emptyList _ | emptyObject _ =>
    exact ⟨_, _, rfl, by decide, by decide, by decide⟩
  | list _ _ _ | object _ _ _ => exact ⟨_, _, rfl, by decide, by decide, by decide⟩
  | lastElement _ _ ih => exact ih
  | element _ _ _ _ ih _ => exact ih
  | lastMember _ _ _ _ _ _ => exact ⟨_, _, rfl, by decide, by decide, by decide⟩
  | member _ _ _ _ _ _ _ _ _ => exact ⟨_, _, rfl, by decide, by decide, by decide⟩

theorem Spans.length_lt (h : Spans form s t) : t.length < s.length := by
  induction h with
  | nullWord t | trueWord t | falseWord t =>
    simp only [List.length_cons]
    omega
  | number number => exact number.length_lt
  | negative number =>
    have shorter := number.length_lt
    simp only [List.length_cons]
    omega
  | string string =>
    have shorter := string.length_lt
    simp only [List.length_cons]
    omega
  | emptyList blanks | emptyObject blanks =>
    have shorter := blanks.length_le
    simp only [List.length_cons] at shorter ⊢
    omega
  | list blanks _ ih | object blanks _ ih =>
    have shorter := blanks.length_le
    simp only [List.length_cons]
    omega
  | lastElement _ blanks ih =>
    have shorter := blanks.length_le
    simp only [List.length_cons] at shorter
    omega
  | element _ blanks more _ ih rest =>
    have shorter := blanks.length_le
    have next := more.length_le
    simp only [List.length_cons] at shorter
    omega
  | lastMember name blanks more _ last ih =>
    have named := name.length_lt
    have colon := blanks.length_le
    have value := more.length_le
    have shorter := last.length_le
    simp only [List.length_cons] at colon shorter ⊢
    omega
  | member name blanks more _ comma next _ ih rest =>
    have named := name.length_lt
    have colon := blanks.length_le
    have value := more.length_le
    have shorter := comma.length_le
    have onward := next.length_le
    simp only [List.length_cons] at colon shorter ⊢
    omega

theorem skipColon_eq {left : List Char} (h : SpansBlanks s (':' :: left)) :
    skipColon s = .ok left := by
  simp [skipColon, h.dropBlanks_cons (by decide)]

theorem Spans.bound_eq (h : Spans form s t) {bound : Nat} (enough : s.length ≤ bound + t.length) :
    ∃ n, bound = n + 1 := by
  have shorter := h.length_lt
  exact ⟨bound - 1, by omega⟩

section Steps
variable {padded elements members colon blank left comma : List Char} {n : Nat}

private theorem skipValueWithin_number (blanks : SpansBlanks padded s) (number : SpansNumber s t)
    (ends : Ends t) : skipValueWithin (n + 1) padded = .ok t := by
  have skipped := number.skip_eq ends
  obtain ⟨c, rest, rfl, solid, -, -⟩ := (Spans.number number).head
  obtain ⟨_, _, same, digit⟩ := number.head
  cases same
  have noWord : c ≠ 'n' ∧ c ≠ 't' ∧ c ≠ 'f' ∧ c ≠ '-' := by
    refine ⟨?_, ?_, ?_, ?_⟩
    all_goals
      rintro rfl
      cases digit
  simp [skipValueWithin, blanks.dropBlanks_cons solid, noWord, digit, skipped]

private theorem skipValueWithin_list (opened : SpansBlanks padded ('[' :: s))
    (inner : SpansBlanks s elements) (parts : Spans .elements elements t)
    (skipped : skipElementsWithin n elements = .ok t) : skipValueWithin (n + 1) padded = .ok t := by
  obtain ⟨c, rest, rfl, solid, full, -⟩ := parts.head
  simp [skipValueWithin, opened.dropBlanks_cons, isBlank, inner.dropBlanks_cons solid, full, skipped]

private theorem skipValueWithin_object (opened : SpansBlanks padded ('\x7b' :: s))
    (inner : SpansBlanks s members) (parts : Spans .members members t)
    (skipped : skipMembersWithin n members = .ok t) : skipValueWithin (n + 1) padded = .ok t := by
  obtain ⟨c, rest, rfl, solid, -, full⟩ := parts.head
  simp [skipValueWithin, opened.dropBlanks_cons, isBlank, inner.dropBlanks_cons solid, full, skipped]

private theorem skipElementsWithin_last (skipped : skipValueWithin n padded = .ok left)
    (last : SpansBlanks left (']' :: t)) : skipElementsWithin (n + 1) padded = .ok t := by
  simp [skipElementsWithin, skipped, last.dropBlanks_cons, isBlank, Bind.bind, Except.bind]

private theorem skipElementsWithin_next (skipped : skipValueWithin n padded = .ok left)
    (mark : SpansBlanks left (',' :: comma)) (remaining : skipElementsWithin n comma = .ok t) :
    skipElementsWithin (n + 1) padded = .ok t := by
  simp [skipElementsWithin, skipped, mark.dropBlanks_cons, isBlank, remaining, Bind.bind,
    Except.bind]

private theorem skipMembersWithin_last (quoted : SpansBlanks padded ('"' :: s))
    (name : SpansString s colon)
    (mark : SpansBlanks colon (':' :: blank)) (skipped : skipValueWithin n blank = .ok left)
    (last : SpansBlanks left ('\x7d' :: t)) : skipMembersWithin (n + 1) padded = .ok t := by
  simp [skipMembersWithin, quoted.dropBlanks_cons, name.skip_eq, skipColon_eq mark, skipped,
    last.dropBlanks_cons, isBlank, Bind.bind, Except.bind]

private theorem skipMembersWithin_next (quoted : SpansBlanks padded ('"' :: s))
    (name : SpansString s colon)
    (mark : SpansBlanks colon (':' :: blank)) (skipped : skipValueWithin n blank = .ok left)
    (separator : SpansBlanks left (',' :: comma))
    (remaining : skipMembersWithin n comma = .ok t) : skipMembersWithin (n + 1) padded = .ok t := by
  simp [skipMembersWithin, quoted.dropBlanks_cons, name.skip_eq, skipColon_eq mark, skipped,
    separator.dropBlanks_cons, isBlank, remaining, Bind.bind, Except.bind]

end Steps

/-- A scan passes over a part and the blanks before it, if its bound is as large as the part. -/
theorem Spans.skip_eq (h : Spans form s t) (ends : form = .value → Ends t) {bound : Nat}
    {padded : List Char} (blanks : SpansBlanks padded s) (enough : s.length ≤ bound + t.length) :
    form.skip bound padded = .ok t := by
  -- each inner part is shorter than the whole, so the bound less one is enough for it
  induction h generalizing bound padded with
  | nullWord t | trueWord t | falseWord t =>
    simp only [List.length_cons] at enough
    obtain ⟨n, rfl⟩ : ∃ n, bound = n + 1 := ⟨bound - 1, by omega⟩
    simp [Form.skip, skipValueWithin, blanks.dropBlanks_cons, isBlank, skipWord]
  | number number =>
    obtain ⟨n, rfl⟩ := (Spans.number number).bound_eq enough
    exact skipValueWithin_number blanks number (ends rfl)
  | negative number =>
    obtain ⟨n, rfl⟩ := (Spans.negative number).bound_eq enough
    simp [Form.skip, skipValueWithin, blanks.dropBlanks_cons, isBlank, number.skip_eq (ends rfl)]
  | string string =>
    obtain ⟨n, rfl⟩ := (Spans.string string).bound_eq enough
    simp [Form.skip, skipValueWithin, blanks.dropBlanks_cons, isBlank, string.skip_eq]
  | emptyList inner =>
    obtain ⟨n, rfl⟩ := (Spans.emptyList inner).bound_eq enough
    simp [Form.skip, skipValueWithin, blanks.dropBlanks_cons, inner.dropBlanks_cons, isBlank]
  | emptyObject inner =>
    obtain ⟨n, rfl⟩ := (Spans.emptyObject inner).bound_eq enough
    simp [Form.skip, skipValueWithin, blanks.dropBlanks_cons, inner.dropBlanks_cons, isBlank]
  | list inner parts ih =>
    obtain ⟨n, rfl⟩ := (Spans.list inner parts).bound_eq enough
    have padding := inner.length_le
    simp only [List.length_cons] at enough
    exact skipValueWithin_list blanks inner parts (ih nofun (.none _) (by omega))
  | object inner parts ih =>
    obtain ⟨n, rfl⟩ := (Spans.object inner parts).bound_eq enough
    have padding := inner.length_le
    simp only [List.length_cons] at enough
    exact skipValueWithin_object blanks inner parts (ih nofun (.none _) (by omega))
  | lastElement value last ih =>
    obtain ⟨n, rfl⟩ := (Spans.lastElement value last).bound_eq enough
    have closing := last.length_le
    simp only [List.length_cons] at closing
    refine skipElementsWithin_last (ih ?_ blanks (by omega)) last
    exact fun _ => last.ends (.inr (.inl rfl))
  | element value mark more parts ih rest =>
    obtain ⟨n, rfl⟩ := (Spans.element value mark more parts).bound_eq enough
    have taken := value.length_lt
    have marked := mark.length_le
    have padding := more.length_le
    have onward := parts.length_lt
    simp only [List.length_cons] at marked
    refine skipElementsWithin_next (ih ?_ blanks (by omega)) mark (rest nofun more (by omega))
    exact fun _ => mark.ends (.inl rfl)
  | lastMember name mark more part last ih =>
    obtain ⟨n, rfl⟩ := (Spans.lastMember name mark more part last).bound_eq enough
    have named := name.length_lt
    have marked := mark.length_le
    have padding := more.length_le
    have closing := last.length_le
    simp only [List.length_cons] at enough marked closing
    refine skipMembersWithin_last blanks name mark (ih ?_ more (by omega)) last
    exact fun _ => last.ends (.inr (.inr rfl))
  | member name mark more part separator gap parts ih rest =>
    obtain ⟨n, rfl⟩ :=
      (Spans.member name mark more part separator gap parts).bound_eq enough
    have named := name.length_lt
    have marked := mark.length_le
    have padding := more.length_le
    have taken := part.length_lt
    have separated := separator.length_le
    have onward := gap.length_le
    have shorter := parts.length_lt
    simp only [List.length_cons] at enough marked separated
    refine skipMembersWithin_next blanks name mark (ih ?_ more (by omega)) separator
      (rest nofun gap (by omega))
    exact fun _ => separator.ends (.inl rfl)

theorem skipValue_eq {padded : List Char} (blanks : SpansBlanks padded s) (h : Spans .value s t)
    (ends : Ends t) : skipValue padded = .ok t := by
  have padding := blanks.length_le
  exact h.skip_eq (fun _ => ends) blanks (by omega)

end Values
end DocGuard.Json
