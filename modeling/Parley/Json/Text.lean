namespace Parley.Json

def hexDigit (value : Nat) : Char := Nat.digitChar value

def hexValue? (c : Char) : Option Nat :=
  if '0' ≤ c && c ≤ '9' then some (c.toNat - '0'.toNat)
  else if 'a' ≤ c && c ≤ 'f' then some (c.toNat - 'a'.toNat + 10)
  else if 'A' ≤ c && c ≤ 'F' then some (c.toNat - 'A'.toNat + 10)
  else none

/-- Control characters below the space have to be escaped, and so do the quote and the backslash. -/
def escape (c : Char) : List Char :=
  if c = '"' then ['\\', '"']
  else if c = '\\' then ['\\', '\\']
  else if c = '\x08' then ['\\', 'b']
  else if c = '\x0c' then ['\\', 'f']
  else if c = '\n' then ['\\', 'n']
  else if c = '\r' then ['\\', 'r']
  else if c = '\t' then ['\\', 't']
  else if c.toNat < 0x20 then ['\\', 'u', '0', '0', hexDigit (c.toNat / 16), hexDigit (c.toNat % 16)]
  else [c]

/-- What stands between the quotes of a written string. -/
def escaped (text : List Char) : List Char := text.flatMap escape

def quoteChars (text : List Char) : List Char := '"' :: escaped text ++ ['"']

def quote (text : String) : String := String.ofList (quoteChars text.toList)

def unescape? : Char → Option Nat
  | '"' => some '"'.toNat
  | '\\' => some '\\'.toNat
  | '/' => some '/'.toNat
  | 'b' => some 0x08
  | 'f' => some 0x0C
  | 'n' => some 0x0A
  | 'r' => some 0x0D
  | 't' => some 0x09
  | _ => none

/-- The code points that a string literal spells, escapes of surrogates taken one by one. Control
characters may not stand in a literal. -/
def codePoints? : List Char → Option (List Nat)
  | [] => some []
  | '\\' :: 'u' :: a :: b :: c :: d :: rest => do
    let a ← hexValue? a
    let b ← hexValue? b
    let c ← hexValue? c
    let d ← hexValue? d
    return (((a * 16 + b) * 16 + c) * 16 + d) :: (← codePoints? rest)
  | '\\' :: c :: rest => do
    return (← unescape? c) :: (← codePoints? rest)
  | c :: rest => do
    if c = '\\' || c.toNat < 0x20 then none
    else return c.toNat :: (← codePoints? rest)

/-- Joins the two halves of a code point beyond the first plane. -/
def joinSurrogates : List Nat → List Nat
  | [] => []
  | high :: low :: rest =>
    if 0xD800 ≤ high && high ≤ 0xDBFF && 0xDC00 ≤ low && low ≤ 0xDFFF then
      (0x10000 + (high - 0xD800) * 0x400 + (low - 0xDC00)) :: joinSurrogates rest
    else
      high :: joinSurrogates (low :: rest)
  | [point] => [point]

/-- Half a surrogate pair is no character, so a string that names one has no text. -/
def text? (points : List Nat) : Option String := do
  let chars ← (joinSurrogates points).mapM fun point =>
    if point.isValidChar then some (Char.ofNat point) else none
  return String.ofList chars

end Parley.Json
