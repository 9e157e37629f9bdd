import DocGuard.Json.Scan

/-! The texts that JSON strings spell. Two escapes may together stand for one character beyond the
first plane; a half of such a pair alone is a fault. -/
namespace DocGuard.Json

/-- The first half of a pair of escapes. -/
def isLeading (n : Nat) : Bool :=
  0xD800 ≤ n && n ≤ 0xDBFF

/-- The second half of a pair of escapes. -/
def isTrailing (n : Nat) : Bool :=
  0xDC00 ≤ n && n ≤ 0xDFFF

/-- The character that a pair stands for. -/
def joined (leading trailing : Nat) : Char :=
  Char.ofNat ((leading - 0xD800) * 0x400 + (trailing - 0xDC00) + 0x10000)

/-- The second half of a pair behind the digits of the first, and the character of the pair. -/
def readTrailing (leading : Nat) : List Char → Except Fault Char
  | [] => fail .endOfString []
  | b :: afterFirst =>
    if b = '\\' then
      match afterFirst with
      | [] => fail .endOfString []
      | u :: rest =>
        if u = 'u' then do
          let n ← readHex rest
          if isTrailing n then return joined leading n else fail .loneSurrogate (rest.drop 4)
        else failAt .unfinishedSurrogatePair (u :: rest)
    else failAt .unfinishedSurrogatePair (b :: afterFirst)

/-- The character of an escape behind its backslash, and the number of characters that spell it. -/
def readEscape : List Char → Except Fault (Char × Nat)
  | [] => fail .endOfString []
  | c :: rest =>
    if c = 'u' then do
      let n ← readHex rest
      if isTrailing n then fail .loneSurrogate (rest.drop 4)
      else if isLeading n then return (← readTrailing n (rest.drop 4), 11)
      else return (Char.ofNat n, 5)
    else
      match escaped? c with
      | some d => .ok (d, 1)
      | none => failAt .invalidEscape (c :: rest)

/-- The text of a string behind its opening quote, and what is left behind its closing one. The
first argument counts the characters of an escape that are still to pass. -/
def readString : Nat → List Char → Except Fault (List Char × List Char)
  | _, [] => fail .endOfString []
  | n + 1, _ :: rest => readString n rest
  | 0, c :: rest =>
    if c = '"' then .ok ([], rest)
    else if c = '\\' then do
      let (d, n) ← readEscape rest
      let (text, left) ← readString n rest
      return (d :: text, left)
    else if c < ' ' then fail .controlCharacter rest
    else do
      let (text, left) ← readString 0 rest
      return (c :: text, left)

end DocGuard.Json
