import Parley.Json.Text

/-! JSON values and their reading. A text is split into lexemes, and the lexemes run through a machine
with a stack, so values may nest as deep as they like. -/

namespace Parley.Json

/-- Numbers are kept as written. A string that names half a surrogate pair has no text. -/
inductive Value
  | null
  | bool (value : Bool)
  | number (written : List Char)
  | text (content : Option String)
  | list (items : List Value)
  | fields (entries : List (Option String × Value))

inductive Lexeme
  | mark (c : Char)
  | literal (raw : List Char)
  | word (chars : List Char)
  deriving DecidableEq, Repr

def isSpace (c : Char) : Bool := c = ' ' || c = '\t' || c = '\n' || c = '\r'

def isMark (c : Char) : Bool :=
  c = '[' || c = ']' || c = '\x7b' || c = '\x7d' || c = ':' || c = ','

/-- Where between lexemes a reading is; what has been read of one is kept last character first. -/
inductive Lexing
  | between
  | inWord (read : List Char)
  | inLiteral (read : List Char)
  | afterBackslash (read : List Char)
  deriving DecidableEq, Repr

def lexemes? : Lexing → List Char → Option (List Lexeme)
  | .between, [] => some []
  | .inWord read, [] => some [.word read.reverse]
  | .inLiteral _, [] => none
  | .afterBackslash _, [] => none
  | .between, c :: rest =>
    if isSpace c then lexemes? .between rest
    else if c = '"' then lexemes? (.inLiteral []) rest
    else if isMark c then (lexemes? .between rest).map (.mark c :: ·)
    else lexemes? (.inWord [c]) rest
  | .inWord read, c :: rest =>
    if isSpace c then (lexemes? .between rest).map (.word read.reverse :: ·)
    else if c = '"' then (lexemes? (.inLiteral []) rest).map (.word read.reverse :: ·)
    else if isMark c then
      (lexemes? .between rest).map fun later => .word read.reverse :: .mark c :: later
    else lexemes? (.inWord (c :: read)) rest
  | .inLiteral read, c :: rest =>
    if c = '"' then (lexemes? .between rest).map (.literal read.reverse :: ·)
    else if c = '\\' then lexemes? (.afterBackslash read) rest
    else lexemes? (.inLiteral (c :: read)) rest
  | .afterBackslash read, c :: rest => lexemes? (.inLiteral (c :: '\\' :: read)) rest

def isDigits (word : List Char) : Bool := word ≠ [] && word.all Char.isDigit

/-- A sign, a whole part without leading zeros, a fraction and an exponent, of which only the whole part
has to be there. -/
def isNumber (word : List Char) : Bool :=
  let unsigned := match word with
    | '-' :: rest => rest
    | _ => word
  let mantissa := unsigned.takeWhile fun c => c ≠ 'e' && c ≠ 'E'
  let whole := mantissa.takeWhile (· ≠ '.')
  let exponent := (unsigned.drop mantissa.length).drop 1
  let power := match exponent with
    | '+' :: rest => rest
    | '-' :: rest => rest
    | _ => exponent
  isDigits whole && (whole.length = 1 || whole.head? ≠ some '0')
    && (mantissa.length = whole.length || isDigits (mantissa.drop (whole.length + 1)))
    && (unsigned.length = mantissa.length || isDigits power)

def ofWord? (word : List Char) : Option Value :=
  if word = "null".toList then some .null
  else if word = "true".toList then some (.bool true)
  else if word = "false".toList then some (.bool false)
  else if isNumber word then some (.number word)
  else none

def content? (raw : List Char) : Option (Option String) := (codePoints? raw).map text?

/-- A list or an object under way, its parts last first. -/
inductive Frame
  | list (before : List Value)
  | fields (before : List (Option String × Value)) (key : Option String)

/-- What may come next. -/
inductive Awaiting
  | value
  | firstItem
  | firstKey
  | key (before : List (Option String × Value))
  | colon (before : List (Option String × Value)) (key : Option String)
  | nothing (value : Value)

structure Machine where
  awaiting : Awaiting
  stack : List Frame

namespace Machine

def enter (stack : List Frame) : Lexeme → Option Machine
  | .mark '[' => some ⟨.firstItem, stack⟩
  | .mark '\x7b' => some ⟨.firstKey, stack⟩
  | .mark _ => none
  | .literal raw => (content? raw).map fun content => ⟨.nothing (.text content), stack⟩
  | .word word => (ofWord? word).map fun value => ⟨.nothing value, stack⟩

def resume (value : Value) : List Frame → Lexeme → Option Machine
  | .list before :: outer, .mark ',' => some ⟨.value, .list (value :: before) :: outer⟩
  | .list before :: outer, .mark ']' => some ⟨.nothing (.list (value :: before).reverse), outer⟩
  | .fields before key :: outer, .mark ',' => some ⟨.key ((key, value) :: before), outer⟩
  | .fields before key :: outer, .mark '\x7d' =>
    some ⟨.nothing (.fields ((key, value) :: before).reverse), outer⟩
  | _, _ => none

def read (machine : Machine) (lexeme : Lexeme) : Option Machine :=
  match machine.awaiting with
  | .value => enter machine.stack lexeme
  | .firstItem =>
    if lexeme = .mark ']' then some ⟨.nothing (.list []), machine.stack⟩
    else enter (.list [] :: machine.stack) lexeme
  | .firstKey =>
    match lexeme with
    | .mark '\x7d' => some ⟨.nothing (.fields []), machine.stack⟩
    | .literal raw => (content? raw).map fun key => ⟨.colon [] key, machine.stack⟩
    | _ => none
  | .key before =>
    match lexeme with
    | .literal raw => (content? raw).map fun key => ⟨.colon before key, machine.stack⟩
    | _ => none
  | .colon before key =>
    if lexeme = .mark ':' then some ⟨.value, .fields before key :: machine.stack⟩ else none
  | .nothing value => resume value machine.stack lexeme

end Machine

/-- The value that a text spells, if it spells one and nothing else. -/
def parse? (text : List Char) : Option Value := do
  let lexemes ← lexemes? .between text
  match ← lexemes.foldlM Machine.read ⟨.value, []⟩ with
  | ⟨.nothing value, []⟩ => return value
  | _ => none

end Parley.Json
