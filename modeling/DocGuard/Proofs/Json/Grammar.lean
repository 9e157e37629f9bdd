/-! The grammar of JSON texts, as relations between a text and what is left of it behind one of its
parts. It says which texts there are and what a string in them spells, and nothing about how they
are read. -/
namespace DocGuard.Json

/-- Blanks, of which there may be none. -/
inductive SpansBlanks : List Char → List Char → Prop where
  | none (s : List Char) : SpansBlanks s s
  | more {c : Char} {s t : List Char} :
      c ∈ [' ', '\t', '\n', '\r'] → SpansBlanks s t → SpansBlanks (c :: s) t

/-- Decimal digits, of which there may be none. -/
inductive SpansDigits : List Char → List Char → Prop where
  | none (s : List Char) : SpansDigits s s
  | more {c : Char} {s t : List Char} :
      c.isDigit = true → SpansDigits s t → SpansDigits (c :: s) t

/-- The digits before the point. Only a zero alone starts with zero. -/
inductive SpansWhole : List Char → List Char → Prop where
  | zero (t : List Char) : SpansWhole ('0' :: t) t
  | digits {c : Char} {s t : List Char} :
      c.isDigit = true → c ≠ '0' → SpansDigits s t → SpansWhole (c :: s) t

/-- The point with the digits behind it, or nothing. -/
inductive SpansFraction : List Char → List Char → Prop where
  | none (s : List Char) : SpansFraction s s
  | digits {c : Char} {s t : List Char} :
      c.isDigit = true → SpansDigits s t → SpansFraction ('.' :: c :: s) t

/-- The letter, the sign and the digits of an exponent, or nothing. -/
inductive SpansExponent : List Char → List Char → Prop where
  | none (s : List Char) : SpansExponent s s
  | unsigned {e c : Char} {s t : List Char} : e ∈ ['e', 'E'] →
      c.isDigit = true → SpansDigits s t → SpansExponent (e :: c :: s) t
  | signed {e sign c : Char} {s t : List Char} : e ∈ ['e', 'E'] → sign ∈ ['+', '-'] →
      c.isDigit = true → SpansDigits s t → SpansExponent (e :: sign :: c :: s) t

/-- A number without its sign. -/
inductive SpansNumber : List Char → List Char → Prop where
  | mk {s fraction exponent t : List Char} : SpansWhole s fraction →
      SpansFraction fraction exponent → SpansExponent exponent t → SpansNumber s t

/-- A digit of base sixteen with its value; the letters may be small or capital. -/
def IsHex (c : Char) (value : Nat) : Prop :=
  value < 16 ∧ (c = Nat.digitChar value ∨ c = (Nat.digitChar value).toUpper)

/-- Four digits of base sixteen with the number that they make. -/
def IsHexNumber (a b c d : Char) (n : Nat) : Prop :=
  ∃ w x y z, IsHex a w ∧ IsHex b x ∧ IsHex c y ∧ IsHex d z ∧ n = ((w * 16 + x) * 16 + y) * 16 + z

/-- The letters that may stand behind a backslash, with the characters that they stand for. -/
def escapeLetters : List (Char × Char) :=
  [('"', '"'), ('\\', '\\'), ('/', '/'), ('b', '\x08'), ('f', '\x0c'), ('n', '\n'), ('r', '\r'),
    ('t', '\t')]

/-- A string behind its opening quote, whatever its escapes stand for. -/
inductive SpansString : List Char → List Char → Prop where
  | close (t : List Char) : SpansString ('"' :: t) t
  | plain {c : Char} {s t : List Char} : c ≠ '"' → c ≠ '\\' → ' ' ≤ c →
      SpansString s t → SpansString (c :: s) t
  | letter {c d : Char} {s t : List Char} : (c, d) ∈ escapeLetters →
      SpansString s t → SpansString ('\\' :: c :: s) t
  | number {a b c d : Char} {n : Nat} {s t : List Char} : IsHexNumber a b c d n →
      SpansString s t → SpansString ('\\' :: 'u' :: a :: b :: c :: d :: s) t

/-- A string behind its opening quote, with the text that it spells. An escape with a number stands
for a character of the first plane, and two of them, the halves of a surrogate pair, for any other.
-/
inductive Spells : List Char → List Char → List Char → Prop where
  | close (t : List Char) : Spells ('"' :: t) [] t
  | plain {c : Char} {s text t : List Char} : c ≠ '"' → c ≠ '\\' → ' ' ≤ c →
      Spells s text t → Spells (c :: s) (c :: text) t
  | letter {c d : Char} {s text t : List Char} : (c, d) ∈ escapeLetters →
      Spells s text t → Spells ('\\' :: c :: s) (d :: text) t
  | unit {a b c e d : Char} {s text t : List Char} : IsHexNumber a b c e d.toNat →
      Spells s text t → Spells ('\\' :: 'u' :: a :: b :: c :: e :: s) (d :: text) t
  | pair {a b c e f g h i d : Char} {s text t : List Char} : 0x10000 ≤ d.toNat →
      IsHexNumber a b c e (0xD800 + (d.toNat - 0x10000) / 0x400) →
      IsHexNumber f g h i (0xDC00 + (d.toNat - 0x10000) % 0x400) → Spells s text t →
      Spells ('\\' :: 'u' :: a :: b :: c :: e :: '\\' :: 'u' :: f :: g :: h :: i :: s) (d :: text) t

/-- The parts that values are made of: a value, or the elements of a list or the members of an object
up to its end. -/
inductive Form where
  | value
  | elements
  | members

/-- A part of a text. The first character of each is not blank. -/
inductive Spans : Form → List Char → List Char → Prop where
  | nullWord (t : List Char) : Spans .value ('n' :: 'u' :: 'l' :: 'l' :: t) t
  | trueWord (t : List Char) : Spans .value ('t' :: 'r' :: 'u' :: 'e' :: t) t
  | falseWord (t : List Char) : Spans .value ('f' :: 'a' :: 'l' :: 's' :: 'e' :: t) t
  | number {s t : List Char} : SpansNumber s t → Spans .value s t
  | negative {s t : List Char} : SpansNumber s t → Spans .value ('-' :: s) t
  | string {s t : List Char} : SpansString s t → Spans .value ('"' :: s) t
  | emptyList {s t : List Char} : SpansBlanks s (']' :: t) → Spans .value ('[' :: s) t
  | list {s elements t : List Char} : SpansBlanks s elements → Spans .elements elements t →
      Spans .value ('[' :: s) t
  | emptyObject {s t : List Char} : SpansBlanks s ('\x7d' :: t) → Spans .value ('\x7b' :: s) t
  | object {s members t : List Char} : SpansBlanks s members → Spans .members members t →
      Spans .value ('\x7b' :: s) t
  | lastElement {s left t : List Char} : Spans .value s left → SpansBlanks left (']' :: t) →
      Spans .elements s t
  | element {s left comma next t : List Char} : Spans .value s left →
      SpansBlanks left (',' :: comma) → SpansBlanks comma next → Spans .elements next t →
      Spans .elements s t
  | lastMember {s colon blank value left t : List Char} : SpansString s colon →
      SpansBlanks colon (':' :: blank) → SpansBlanks blank value → Spans .value value left →
      SpansBlanks left ('\x7d' :: t) → Spans .members ('"' :: s) t
  | member {s colon blank value left comma next t : List Char} : SpansString s colon →
      SpansBlanks colon (':' :: blank) → SpansBlanks blank value → Spans .value value left →
      SpansBlanks left (',' :: comma) → SpansBlanks comma next → Spans .members next t →
      Spans .members ('"' :: s) t

/-- A member of an object that is read for some names. One of these names comes with a string and is
found with the text that it spells; a member of another name may have any value. -/
inductive SpansMember (names : List String) : List (String × String) → List Char → List Char → Prop
    where
  | named {name text : String} {s colon blank value t : List Char} : name ∈ names →
      Spells s name.toList colon → SpansBlanks colon (':' :: blank) →
      SpansBlanks blank ('"' :: value) → Spells value text.toList t →
      SpansMember names [(name, text)] ('"' :: s) t
  | further {name : String} {s colon blank value t : List Char} : name ∉ names →
      Spells s name.toList colon → SpansBlanks colon (':' :: blank) → SpansBlanks blank value →
      Spans .value value t → SpansMember names [] ('"' :: s) t

/-- The members behind the first one, up to the end of the object. -/
inductive SpansRest (names : List String) : List (String × String) → List Char → List Char → Prop
    where
  | close {s t : List Char} : SpansBlanks s ('\x7d' :: t) → SpansRest names [] s t
  | next {found rest : List (String × String)} {s comma member left t : List Char} :
      SpansBlanks s (',' :: comma) → SpansBlanks comma member → SpansMember names found member left →
      SpansRest names rest left t → SpansRest names (found ++ rest) s t

/-- The text is an object, with blanks around it, that holds each of some fields once with its text,
in any order and among members of other names. -/
inductive IsRecord (fields : List (String × String)) : List Char → Prop where
  | mk {found rest : List (String × String)} {s object member left trailing : List Char} :
      SpansBlanks s ('\x7b' :: object) → SpansBlanks object member →
      SpansMember (fields.map Prod.fst) found member left →
      SpansRest (fields.map Prod.fst) rest left trailing → SpansBlanks trailing [] →
      (found ++ rest).Perm fields → IsRecord fields s

end DocGuard.Json
