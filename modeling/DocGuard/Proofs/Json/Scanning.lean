import DocGuard.Proofs.Json.Decoding

/-! What a scan passes over is in the grammar, and what is read as a string spells the text that was
read. With the converse, that a scan passes over what the grammar has, a text is taken for JSON
exactly if it is JSON. -/
namespace DocGuard.Json
variable {s t u : List Char}

section Blanks

theorem SpansBlanks.trans (h : SpansBlanks s t) (g : SpansBlanks t u) : SpansBlanks s u := by
  induction h with
  | none s => exact g
  | more blank _ ih => exact .more blank (ih g)

theorem spansBlanks_dropBlanks (s : List Char) : SpansBlanks s (dropBlanks s) := by
  induction s with
  | nil => exact .none []
  | cons c rest ih =>
    by_cases blank : isBlank c = true
    · rw [dropBlanks, List.dropWhile_cons_of_pos blank]
      exact .more (isBlank_iff.1 blank) ih
    · rw [dropBlanks, List.dropWhile_cons_of_neg blank]
      exact .none _

theorem spansBlanks_of_eq (h : dropBlanks s = t) : SpansBlanks s t :=
  h ▸ spansBlanks_dropBlanks s

private theorem dropBlanks_of_cons {c : Char} {rest : List Char} (h : dropBlanks s = c :: rest) :
    dropBlanks (c :: rest) = c :: rest := by
  have solid : ¬ isBlank c = true := by
    have stopped := List.head?_dropWhile_not isBlank s
    have same : s.dropWhile isBlank = c :: rest := h
    simpa [same] using stopped
  exact List.dropWhile_cons_of_neg solid

end Blanks

section Numbers

private theorem spansDigits_dropDigits (s : List Char) : SpansDigits s (dropDigits s) := by
  induction s with
  | nil => exact .none []
  | cons c rest ih =>
    by_cases digit : c.isDigit = true
    · rw [dropDigits, List.dropWhile_cons_of_pos digit]
      exact .more digit ih
    · rw [dropDigits, List.dropWhile_cons_of_neg digit]
      exact .none _

private theorem exists_of_skipExponentDigits (h : skipExponentDigits s = .ok t) :
    ∃ c rest, s = c :: rest ∧ c.isDigit = true ∧ SpansDigits rest t := by
  cases s with
  | nil => cases h
  | cons c rest =>
    simp only [skipExponentDigits] at h
    split_ifs at h with digit
    · cases h
      exact ⟨c, rest, rfl, digit, spansDigits_dropDigits rest⟩
    · cases h

private theorem spansExponent_of_skip (h : skipExponent s = .ok t) : SpansExponent s t := by
  cases s with
  | nil =>
    cases h
    exact .none []
  | cons e rest =>
    simp only [skipExponent] at h
    split_ifs at h with letter
    · have among : e ∈ ['e', 'E'] := by simpa using letter
      split at h
      case h_1 digits | h_2 digits =>
        obtain ⟨c, rest, rfl, digit, spanned⟩ := exists_of_skipExponentDigits h
        exact .signed among (by decide) digit spanned
      case h_3 =>
        obtain ⟨c, rest, rfl, digit, spanned⟩ := exists_of_skipExponentDigits h
        exact .unsigned among digit spanned
    · cases h
      exact .none _

private theorem exists_digits (h : startsWithDigit s = true) :
    ∃ c rest, s = c :: rest ∧ c.isDigit = true ∧ SpansDigits rest (dropDigits s) := by
  cases s with
  | nil => cases h
  | cons c rest =>
    have digit : c.isDigit = true := by simpa [startsWithDigit] using h
    refine ⟨c, rest, rfl, digit, ?_⟩
    rw [dropDigits, List.dropWhile_cons_of_pos digit]
    exact spansDigits_dropDigits rest

private theorem spansFraction_of_skip (h : skipFraction s = .ok t) :
    ∃ exponent, SpansFraction s exponent ∧ SpansExponent exponent t := by
  cases s with
  | nil =>
    cases h
    exact ⟨[], .none [], .none []⟩
  | cons c rest =>
    simp only [skipFraction] at h
    split_ifs at h with point digits
    · subst point
      obtain ⟨d, more, rfl, digit, spanned⟩ := exists_digits digits
      exact ⟨_, .digits digit spanned, spansExponent_of_skip h⟩
    · cases h
    · exact ⟨_, .none _, spansExponent_of_skip h⟩

private theorem spansNumber_of_skip (h : skipNumber s = .ok t) : SpansNumber s t := by
  cases s with
  | nil => cases h
  | cons c rest =>
    simp only [skipNumber] at h
    split_ifs at h with zero more digit
    · cases h
    · subst zero
      obtain ⟨exponent, fraction, last⟩ := spansFraction_of_skip h
      exact .mk (.zero _) fraction last
    · obtain ⟨exponent, fraction, last⟩ := spansFraction_of_skip h
      exact .mk (.digits digit zero (spansDigits_dropDigits rest)) fraction last
    · cases h

end Numbers

section Strings
variable {n : Nat} {text : List Char}

private theorem isHex_of_hexDigit? {c : Char} (h : hexDigit? c = some n) : IsHex c n := by
  have bounded : c.toNat < 128 := by
    unfold hexDigit? at h
    split_ifs at h with digit small capital
    · have high := (Char.isDigit_iff_toNat.1 digit).2
      have last : '9'.toNat = 57 := rfl
      omega
    · have high : c.toNat ≤ 'f'.toNat := small.2
      have last : 'f'.toNat = 102 := rfl
      omega
    · have high : c.toNat ≤ 'F'.toNat := capital.2
      have last : 'F'.toNat = 70 := rfl
      omega
  have table : ∀ code < 128, ∀ value ∈ hexDigit? (Char.ofNat code), value < 16 ∧
      (Char.ofNat code = Nat.digitChar value ∨
        Char.ofNat code = (Nat.digitChar value).toUpper) := by
    decide
  have found := table c.toNat bounded
  rw [Char.ofNat_toNat] at found
  exact found n h

private theorem isHexNumber_of_hexNumber? {a b c d : Char} (h : hexNumber? a b c d = some n) :
    IsHexNumber a b c d n := by
  obtain ⟨w, first, h⟩ := Option.bind_eq_some_iff.1 h
  obtain ⟨x, second, h⟩ := Option.bind_eq_some_iff.1 h
  obtain ⟨y, third, h⟩ := Option.bind_eq_some_iff.1 h
  obtain ⟨z, fourth, h⟩ := Option.bind_eq_some_iff.1 h
  exact ⟨w, x, y, z, isHex_of_hexDigit? first, isHex_of_hexDigit? second, isHex_of_hexDigit? third,
    isHex_of_hexDigit? fourth, (Option.some.inj h).symm⟩

private theorem isHexNumber_of_readHex (h : readHex s = .ok n) :
    ∃ a b c d rest, s = a :: b :: c :: d :: rest ∧ IsHexNumber a b c d n := by
  unfold readHex at h
  split_ifs at h with short
  · cases h
  · split at h
    · rename_i a b c d rest
      split at h
      · rename_i value digits
        cases h
        exact ⟨a, b, c, d, rest, rfl, isHexNumber_of_hexNumber? digits⟩
      · cases h
    · cases h

private theorem letter_of_escaped? {c d : Char} (h : escaped? c = some d) :
    (c, d) ∈ escapeLetters := by
  unfold escaped? at h
  split_ifs at h with itself
  · cases h
    rcases itself with rfl | rfl | rfl <;> decide
  all_goals
    subst c
    cases h
    decide

private theorem spansString_of_scanEscape (h : scanEscape s = .ok n)
    (onward : SpansString (s.drop n) t) :
    SpansString ('\\' :: s) t := by
  cases s with
  | nil => cases h
  | cons c rest =>
    simp only [scanEscape] at h
    split_ifs at h with number letter
    · subst number
      obtain ⟨m, digits, h⟩ := bind_eq_ok.1 h
      cases h
      obtain ⟨a, b, c, d, left, rfl, spelled⟩ := isHexNumber_of_readHex digits
      exact .number spelled onward
    · cases h
      obtain ⟨d, found⟩ := Option.isSome_iff_exists.1 letter
      exact .letter (letter_of_escaped? found) onward
    · cases h

private theorem spansString_of_skip (h : skipString n s = .ok t) : SpansString (s.drop n) t := by
  induction s generalizing n with
  | nil => cases n <;> cases h
  | cons c rest ih =>
    cases n with
    | succ n => exact ih h
    | zero =>
      simp only [skipString] at h
      split_ifs at h with quote backslash control
      · cases h
        exact quote ▸ .close t
      · subst backslash
        obtain ⟨n, scanned, h⟩ := bind_eq_ok.1 h
        exact spansString_of_scanEscape scanned (ih h)
      · cases h
      · exact .plain quote backslash (Char.not_lt.1 control) (ih h)

private theorem IsHexNumber.lt {a b c d : Char} (h : IsHexNumber a b c d n) : n < 0x10000 := by
  obtain ⟨w, x, y, z, ⟨first, -⟩, ⟨second, -⟩, ⟨third, -⟩, ⟨fourth, -⟩, rfl⟩ := h
  omega

private theorem toNat_ofNat_of_isValidChar (valid : n.isValidChar) : (Char.ofNat n).toNat = n := by
  rw [Char.ofNat, dif_pos valid]
  rfl

private theorem toNat_ofNat_of_not_surrogate (small : n < 0x10000) (trailing : isTrailing n = false)
    (leading : isLeading n = false) : (Char.ofNat n).toNat = n := by
  simp only [isTrailing, isLeading, Bool.and_eq_false_iff, decide_eq_false_iff_not] at trailing leading
  have valid : n.isValidChar := by
    unfold Nat.isValidChar
    omega
  exact toNat_ofNat_of_isValidChar valid

private theorem halves_of_joined {m : Nat} (leading : isLeading m = true)
    (trailing : isTrailing n = true) :
    0x10000 ≤ (joined m n).toNat ∧ 0xD800 + ((joined m n).toNat - 0x10000) / 0x400 = m ∧
      0xDC00 + ((joined m n).toNat - 0x10000) % 0x400 = n := by
  simp only [isTrailing, isLeading, Bool.and_eq_true, decide_eq_true_eq] at trailing leading
  have valid : ((m - 0xD800) * 0x400 + (n - 0xDC00) + 0x10000).isValidChar := by
    unfold Nat.isValidChar
    omega
  rw [joined, toNat_ofNat_of_isValidChar valid]
  omega

private theorem exists_trailing {m : Nat} {d : Char} (h : readTrailing m s = .ok d) :
    ∃ n a b c e rest, s = '\\' :: 'u' :: a :: b :: c :: e :: rest ∧ IsHexNumber a b c e n ∧
      isTrailing n = true ∧ d = joined m n := by
  cases s with
  | nil => cases h
  | cons b rest =>
    simp only [readTrailing] at h
    split_ifs at h with mark
    · subst mark
      cases rest with
      | nil => cases h
      | cons u rest =>
        simp only at h
        split_ifs at h with letter
        · subst letter
          obtain ⟨n, digits, given⟩ := bind_eq_ok.1 h
          split_ifs at given with trailing
          · obtain ⟨a, b, c, e, rest, rfl, spelled⟩ := isHexNumber_of_readHex digits
            exact ⟨n, a, b, c, e, rest, rfl, spelled, trailing, (Except.ok.inj given).symm⟩
          · cases given
        · cases h
    · cases h

private theorem spells_of_readEscape {d : Char} (h : readEscape s = .ok (d, n))
    (onward : Spells (s.drop n) text t) : Spells ('\\' :: s) (d :: text) t := by
  cases s with
  | nil => cases h
  | cons c rest =>
    simp only [readEscape] at h
    split_ifs at h with number
    · subst number
      obtain ⟨m, first, h⟩ := bind_eq_ok.1 h
      obtain ⟨a, b, c, e, rest, rfl, digits⟩ := isHexNumber_of_readHex first
      split_ifs at h with trailing leading
      · cases h
      · obtain ⟨d, second, h⟩ := bind_eq_ok.1 h
        cases h
        obtain ⟨n, f, g, h, i, rest, whole, last, trailing, same⟩ := exists_trailing second
        simp only [List.drop_succ_cons, List.drop_zero] at whole
        subst whole
        obtain ⟨high, one, two⟩ := halves_of_joined leading trailing
        rw [← same] at high one two
        exact .pair high (one.symm ▸ digits) (two.symm ▸ last) onward
      · cases h
        have same := toNat_ofNat_of_not_surrogate digits.lt (Bool.not_eq_true _ ▸ trailing)
          (Bool.not_eq_true _ ▸ leading)
        exact .unit (same.symm ▸ digits) onward
    · split at h
      case h_1 letter =>
        cases h
        exact .letter (letter_of_escaped? letter) onward
      case h_2 => cases h

/-- What is read of a string is the text that it spells. -/
theorem spells_of_read (h : readString n s = .ok (text, t)) : Spells (s.drop n) text t := by
  induction s generalizing n text with
  | nil => cases n <;> cases h
  | cons c rest ih =>
    cases n with
    | succ n => exact ih h
    | zero =>
      simp only [readString] at h
      split_ifs at h with quote backslash control
      · cases h
        exact quote ▸ .close t
      · subst backslash
        obtain ⟨⟨d, n⟩, escape, h⟩ := bind_eq_ok.1 h
        obtain ⟨⟨text, left⟩, onward, h⟩ := bind_eq_ok.1 h
        cases h
        exact spells_of_readEscape escape (ih onward)
      · cases h
      · obtain ⟨⟨text, left⟩, onward, h⟩ := bind_eq_ok.1 h
        cases h
        exact .plain quote backslash (Char.not_lt.1 control) (ih onward)

end Strings

section Values
variable {n : Nat}

private theorem eq_append_of_skipWord {word : List Char} (h : skipWord word s = .ok t) :
    s = word ++ t := by
  induction word generalizing s with
  | nil =>
    cases h
    rfl
  | cons w word ih =>
    cases s with
    | nil => cases h
    | cons c rest =>
      simp only [skipWord] at h
      split_ifs at h with same
      · rw [same, ih h, List.cons_append]
      · cases h

theorem spansBlanks_of_skipColon (h : skipColon s = .ok t) : SpansBlanks s (':' :: t) := by
  unfold skipColon at h
  split at h
  · cases h
  · rename_i c rest start
    split_ifs at h with colon
    · cases h
      exact colon ▸ spansBlanks_of_eq start
    · cases h

private theorem spans_of_brackets (form : Form) {bracket closing : Char} {cause : Cause}
    (inner : ∀ {s t}, form.skip n s = .ok t → Spans form (dropBlanks s) t)
    (empty : ∀ {s t}, SpansBlanks s (closing :: t) → Spans .value (bracket :: s) t)
    (filled : ∀ {s parts t}, SpansBlanks s parts → Spans form parts t →
      Spans .value (bracket :: s) t)
    (h : (match dropBlanks s with
      | [] => fail cause []
      | d :: after => if d = closing then .ok after else form.skip n (d :: after)) = .ok t) :
    Spans .value (bracket :: s) t := by
  split at h
  · cases h
  · rename_i d after start
    split_ifs at h with closed
    · cases h
      exact empty (closed ▸ spansBlanks_of_eq start)
    · have parts := inner h
      rw [dropBlanks_of_cons start] at parts
      exact filled (spansBlanks_of_eq start) parts

private theorem spans_value_of_skip
    (elements : ∀ {s t}, skipElementsWithin n s = .ok t → Spans .elements (dropBlanks s) t)
    (members : ∀ {s t}, skipMembersWithin n s = .ok t → Spans .members (dropBlanks s) t)
    (h : skipValueWithin (n + 1) s = .ok t) : Spans .value (dropBlanks s) t := by
  simp only [skipValueWithin] at h
  split at h
  · cases h
  · rename_i c rest start
    rw [start]
    split_ifs at h with isNull isTrue isFalse minus digit quote list object
    · rw [isNull, eq_append_of_skipWord h]
      exact .nullWord t
    · rw [isTrue, eq_append_of_skipWord h]
      exact .trueWord t
    · rw [isFalse, eq_append_of_skipWord h]
      exact .falseWord t
    · exact minus ▸ .negative (spansNumber_of_skip h)
    · exact .number (spansNumber_of_skip h)
    · exact quote ▸ .string (spansString_of_skip h)
    · exact list ▸ spans_of_brackets .elements elements .emptyList .list h
    · exact object ▸ spans_of_brackets .members members .emptyObject .object h
    · cases h

private theorem spans_elements_of_skip
    (value : ∀ {s t}, skipValueWithin n s = .ok t → Spans .value (dropBlanks s) t)
    (elements : ∀ {s t}, skipElementsWithin n s = .ok t → Spans .elements (dropBlanks s) t)
    (h : skipElementsWithin (n + 1) s = .ok t) : Spans .elements (dropBlanks s) t := by
  obtain ⟨left, first, h⟩ := bind_eq_ok.1 h
  split at h
  · cases h
  · rename_i c rest behind
    split_ifs at h with comma closed
    · exact .element (value first) (comma ▸ spansBlanks_of_eq behind)
        (spansBlanks_dropBlanks rest) (elements h)
    · cases h
      exact .lastElement (value first) (closed ▸ spansBlanks_of_eq behind)
    · cases h

private theorem spans_members_of_skip
    (value : ∀ {s t}, skipValueWithin n s = .ok t → Spans .value (dropBlanks s) t)
    (members : ∀ {s t}, skipMembersWithin n s = .ok t → Spans .members (dropBlanks s) t)
    (h : skipMembersWithin (n + 1) s = .ok t) : Spans .members (dropBlanks s) t := by
  simp only [skipMembersWithin] at h
  split at h
  · cases h
  · rename_i q key start
    rw [start]
    split_ifs at h with quote
    · obtain ⟨colon, name, h⟩ := bind_eq_ok.1 h
      obtain ⟨content, mark, h⟩ := bind_eq_ok.1 h
      obtain ⟨left, first, h⟩ := bind_eq_ok.1 h
      rw [quote]
      split at h
      · cases h
      · rename_i c rest behind
        split_ifs at h with comma closed
        · exact .member (spansString_of_skip name) (spansBlanks_of_skipColon mark)
            (spansBlanks_dropBlanks content) (value first) (comma ▸ spansBlanks_of_eq behind)
            (spansBlanks_dropBlanks rest) (members h)
        · cases h
          exact .lastMember (spansString_of_skip name) (spansBlanks_of_skipColon mark)
            (spansBlanks_dropBlanks content) (value first) (closed ▸ spansBlanks_of_eq behind)
        · cases h
    · cases h

private theorem Form.spans_of_skip (form : Form) (h : form.skip n s = .ok t) :
    Spans form (dropBlanks s) t := by
  induction n generalizing form s t with
  | zero => cases form <;> cases h
  | succ n ih =>
    cases form with
    | value => exact spans_value_of_skip (ih .elements) (ih .members) h
    | elements => exact spans_elements_of_skip (ih .value) (ih .elements) h
    | members => exact spans_members_of_skip (ih .value) (ih .members) h

theorem spans_of_skipValue (h : skipValue s = .ok t) : Spans .value (dropBlanks s) t :=
  Form.spans_of_skip .value h

end Values

section Texts

/-- The text is one value with blanks around it. -/
def IsText (s : List Char) : Prop :=
  ∃ value left, SpansBlanks s value ∧ Spans .value value left ∧ SpansBlanks left []

theorem spansBlanks_nil_iff : SpansBlanks s [] ↔ dropBlanks s = [] :=
  ⟨fun h => h.dropBlanks_eq, spansBlanks_of_eq⟩

private theorem SpansBlanks.ends_nil (h : SpansBlanks s []) : Ends s := by
  rintro c rest rfl
  cases h with
  | more blank _ => exact .inl (isBlank_iff.2 blank)

/-- A text is taken for JSON exactly if it is JSON. -/
theorem isText_iff {text : String} : isText text = true ↔ IsText text.toList := by
  constructor
  · intro h
    unfold isText at h
    split at h
    · rename_i left passed
      exact ⟨_, left, spansBlanks_dropBlanks _, spans_of_skipValue passed,
        spansBlanks_nil_iff.2 (List.isEmpty_iff.1 h)⟩
    · cases h
  · rintro ⟨value, left, blanks, part, trailing⟩
    simp [isText, skipValue_eq blanks part trailing.ends_nil, spansBlanks_nil_iff.1 trailing]

def words : List (List Char) :=
  [['n', 'u', 'l', 'l'], ['t', 'r', 'u', 'e'], ['f', 'a', 'l', 's', 'e']]

/-- The text begins as no JSON text does: its first character starts neither blanks nor a number, a
string, a list or an object, and it is long enough to tell that it does not start with a word. -/
def isForeign : List Char → Bool
  | [] => false
  | c :: rest => !(isBlank c || c.isDigit || ['-', '"', '[', '\x7b'].contains c) &&
    words.all fun word => word.length ≤ rest.length && !word.isPrefixOf (c :: rest)

private theorem Spans.exists_word {c : Char} {rest : List Char} (h : Spans .value (c :: rest) t) :
    (c.isDigit = true ∨ c ∈ ['-', '"', '[', '\x7b']) ∨ ∃ word ∈ words, word <+: c :: rest := by
  cases h with
  | nullWord t => exact .inr ⟨['n', 'u', 'l', 'l'], by decide, t, rfl⟩
  | trueWord t => exact .inr ⟨['t', 'r', 'u', 'e'], by decide, t, rfl⟩
  | falseWord t => exact .inr ⟨['f', 'a', 'l', 's', 'e'], by decide, t, rfl⟩
  | number number =>
    obtain ⟨d, more, same, digit⟩ := number.head
    cases same
    exact .inl (.inl digit)
  | negative _ | string _ | emptyList _ | list _ _ | emptyObject _ | object _ _ =>
    exact .inl (.inr (by decide))

/-- A text is as foreign as its beginning. -/
theorem isForeign_append {more : List Char} (h : isForeign s = true) :
    isForeign (s ++ more) = true := by
  cases s with
  | nil => cases h
  | cons c rest =>
    simp only [isForeign, Bool.and_eq_true, List.all_eq_true, decide_eq_true_eq,
      Bool.not_eq_true'] at h
    simp only [isForeign, List.cons_append, Bool.and_eq_true, List.all_eq_true, decide_eq_true_eq,
      Bool.not_eq_true']
    refine ⟨h.1, fun word among => ?_⟩
    obtain ⟨short, different⟩ := h.2 word among
    refine ⟨by rw [List.length_append]; omega, ?_⟩
    rw [Bool.eq_false_iff, ne_eq, List.isPrefixOf_iff_prefix] at different ⊢
    exact fun starts => different (List.prefix_of_prefix_length_le starts
      (List.prefix_append (c :: rest) more) (Nat.le_succ_of_le short))

theorem not_isText_of_foreign (foreign : isForeign s = true) : ¬ IsText s := by
  rintro ⟨value, left, blanks, part, -⟩
  cases s with
  | nil => cases foreign
  | cons c rest =>
    simp only [isForeign, Bool.and_eq_true, Bool.not_eq_true', Bool.or_eq_false_iff,
      List.all_eq_true] at foreign
    obtain ⟨⟨⟨solid, noDigit⟩, noMark⟩, noWord⟩ := foreign
    cases blanks with
    | more blank _ => exact Bool.false_ne_true (solid.symm.trans (isBlank_iff.2 blank))
    | none _ =>
      rcases part.exists_word with (digit | mark) | ⟨word, among, starts⟩
      · exact Bool.false_ne_true (noDigit.symm.trans digit)
      · exact Bool.false_ne_true (noMark.symm.trans (List.contains_iff_mem.2 mark))
      · exact Bool.false_ne_true
          ((noWord word among).2.symm.trans (List.isPrefixOf_iff_prefix.2 starts))

end Texts

end DocGuard.Json
