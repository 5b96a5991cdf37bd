import ForeignCall.Json.Reader
import ForeignCall.PowerOfTwo
import ForeignCall.Toml

/-!
Reading TOML text.

Lines end with a line feed, which a carriage return may precede. Comments and strings hold no control
characters but tabs, and strings of several lines keep their line ends as they are written. Numbers
may have single underscores between digits. Inside brackets and braces, blanks, comments and line ends
may stand between any two marks, and a comma may follow the last entry.
-/

set_option autoImplicit false

namespace ForeignCall

namespace Toml

def skipSpaces (cs : List Char) : List Char := cs.dropWhile fun c => c == ' ' || c == '\t'

def isForbidden (c : Char) : Bool := (c.toNat < 0x20 && c != '\t') || c.toNat == 0x7F

def dropNewline? : List Char → Option (List Char)
  | '\n' :: rest => some rest
  | '\r' :: '\n' :: rest => some rest
  | _ => none

def skipComment : List Char → Option (List Char)
  | [] => some []
  | '\n' :: rest => some ('\n' :: rest)
  | '\r' :: '\n' :: rest => some ('\r' :: '\n' :: rest)
  | c :: rest => if isForbidden c then none else skipComment rest

def skipLines : Nat → List Char → Option (List Char)
  | 0, _ => none
  | fuel + 1, cs =>
    match skipSpaces cs with
    | '#' :: rest => do skipLines fuel (← skipComment rest)
    | cs =>
      match dropNewline? cs with
      | some rest => skipLines fuel rest
      | none => some cs

def isBareKeyChar (c : Char) : Bool := c.isAlphanum || c == '_' || c == '-'

def codePoint? (digits : List Char) : Option Char := do
  let values ← digits.mapM Json.hexValue?
  let n := values.foldl (fun n d => n * 16 + d) 0
  if n.isValidChar then some (Char.ofNat n) else none

def readCodePoint (count : Nat) (cs : List Char) : Option (Char × List Char) :=
  if cs.length < count then none else do return (← codePoint? (cs.take count), cs.drop count)

def readEscape : List Char → Option (Char × List Char)
  | 'b' :: rest => some (.ofNat 8, rest)
  | 'e' :: rest => some (.ofNat 0x1B, rest)
  | 't' :: rest => some ('\t', rest)
  | 'n' :: rest => some ('\n', rest)
  | 'f' :: rest => some (.ofNat 12, rest)
  | 'r' :: rest => some ('\r', rest)
  | '"' :: rest => some ('"', rest)
  | '\\' :: rest => some ('\\', rest)
  | 'x' :: rest => readCodePoint 2 rest
  | 'u' :: rest => readCodePoint 4 rest
  | 'U' :: rest => readCodePoint 8 rest
  | _ => none

def readBasic : Nat → List Char → List Char → Option (String × List Char)
  | 0, _, _ => none
  | fuel + 1, done, cs =>
    match cs with
    | [] => none
    | '"' :: rest => some (String.ofList done.reverse, rest)
    | '\\' :: rest => do
      let (c, rest) ← readEscape rest
      readBasic fuel (c :: done) rest
    | c :: rest => if isForbidden c then none else readBasic fuel (c :: done) rest

def readLiteral (done : List Char) : List Char → Option (String × List Char)
  | [] => none
  | '\'' :: rest => some (String.ofList done.reverse, rest)
  | c :: rest => if isForbidden c then none else readLiteral (c :: done) rest

def quoteRun (q : Char) (cs : List Char) : Nat := (cs.takeWhile (· == q)).length

/-- A run of quotes in a string of several lines: three of them end it, and up to two before those
still belong to it. -/
def closeLines? (q : Char) (done cs : List Char) : Option (Option (String × List Char)) :=
  let run := quoteRun q cs
  if run < 3 then none
  else if 5 < run then some none
  else
    some (some (String.ofList (List.replicate (run - 3) q ++ done).reverse, cs.drop run))

def skipEmptyLines : List Char → List Char
  | '\r' :: '\n' :: rest => skipEmptyLines rest
  | c :: rest => if c == ' ' || c == '\t' || c == '\n' then skipEmptyLines rest else c :: rest
  | [] => []

def dropContinuation? (cs : List Char) : Option (List Char) :=
  (dropNewline? (skipSpaces cs)).map skipEmptyLines

def takePlain? : List Char → Option (List Char × List Char)
  | '\n' :: rest => some (['\n'], rest)
  | '\r' :: '\n' :: rest => some (['\r', '\n'], rest)
  | c :: rest => if isForbidden c then none else some ([c], rest)
  | [] => none

def readBasicLines : Nat → List Char → List Char → Option (String × List Char)
  | 0, _, _ => none
  | fuel + 1, done, cs =>
    match closeLines? '"' done cs with
    | some closed => closed
    | none =>
      match cs with
      | '\\' :: rest =>
        match dropContinuation? rest with
        | some rest => readBasicLines fuel done rest
        | none => do
          let (c, rest) ← readEscape rest
          readBasicLines fuel (c :: done) rest
      | cs => do
        let (text, rest) ← takePlain? cs
        readBasicLines fuel (text.reverse ++ done) rest

def readLiteralLines : Nat → List Char → List Char → Option (String × List Char)
  | 0, _, _ => none
  | fuel + 1, done, cs =>
    match closeLines? '\'' done cs with
    | some closed => closed
    | none => do
      let (text, rest) ← takePlain? cs
      readLiteralLines fuel (text.reverse ++ done) rest

def dropFirstNewline (cs : List Char) : List Char := (dropNewline? cs).getD cs

def readKeyPart (cs : List Char) : Option (String × List Char) :=
  match cs with
  | '"' :: rest => readBasic (rest.length + 1) [] rest
  | '\'' :: rest => readLiteral [] rest
  | cs =>
    let (name, rest) := cs.span isBareKeyChar
    if name.isEmpty then none else some (String.ofList name, rest)

/-- The most parts a dotted key may have, and the most arrays and inline tables that may lie around a
value. -/
def nestingBound : Nat := 80

def readParts : Nat → List Char → Option ((List String × String) × List Char)
  | 0, _ => none
  | room + 1, cs => do
    let (part, rest) ← readKeyPart (skipSpaces cs)
    match skipSpaces rest with
    | '.' :: rest =>
      let ((path, key), rest) ← readParts room rest
      return ((part :: path, key), rest)
    | rest => return (([], part), rest)

def readKey (cs : List Char) : Option ((List String × String) × List Char) :=
  readParts nestingBound cs

def areDigits (isDigit : Char → Bool) (cs : List Char) : Bool :=
  let rec go : Bool → List Char → Bool
    | afterDigit, [] => afterDigit
    | afterDigit, c :: rest =>
      if c == '_' then afterDigit && go false rest && !rest.isEmpty
      else isDigit c && go true rest
  go false cs

def isHexDigit (c : Char) : Bool := (Json.hexValue? c).isSome

def baseValue (base : Nat) (cs : List Char) : Nat :=
  (cs.filterMap Json.hexValue?).foldl (fun n d => n * base + d) 0

def splitSign : List Char → Option Char × List Char
  | '+' :: rest => (some '+', rest)
  | '-' :: rest => (some '-', rest)
  | cs => (none, cs)

def isPlainDecimal (cs : List Char) : Bool :=
  areDigits Char.isDigit cs && (cs.head? != some '0' || cs.length == 1)

def signedValue (sign : Option Char) (digits : List Char) : Int :=
  if sign == some '-' then -(baseValue 10 digits : Int) else baseValue 10 digits

def readInteger? (cs : List Char) : Option Toml :=
  match cs with
  | '0' :: 'x' :: digits =>
    if areDigits isHexDigit digits then some (.integer (baseValue 16 digits)) else none
  | '0' :: 'o' :: digits =>
    if areDigits (fun c => '0' ≤ c && c ≤ '7') digits then some (.integer (baseValue 8 digits))
    else none
  | '0' :: 'b' :: digits =>
    if areDigits (fun c => c == '0' || c == '1') digits then some (.integer (baseValue 2 digits))
    else none
  | cs =>
    let (sign, digits) := splitSign cs
    if isPlainDecimal digits then some (.integer (signedValue sign digits)) else none

/-- The least number that binary64 rounds to infinity: half a step beyond its greatest. -/
def binary64Overflow : Nat := twoPow 1024 - twoPow 970

/-- Whether binary64 rounds the number of these decimal digits, times a power of ten, to a finite
one. Its size settles that, save for the numbers just as long as the greatest. -/
def fitsBinary64 (digits : List Char) (exponent : Int) : Bool :=
  let digits := digits.dropWhile (· == '0')
  let size : Int := digits.length + exponent
  if digits.isEmpty || size < 309 then true
  else if 309 < size then false
  else
    baseValue 10 digits * Nat.pow 10 exponent.toNat <
      binary64Overflow * Nat.pow 10 (-exponent).toNat

def readExponent? (cs : List Char) : Option Int :=
  let (sign, digits) := splitSign cs
  if areDigits Char.isDigit digits then some (signedValue sign digits) else none

def readDecimal? (cs : List Char) : Option Toml := do
  let isDigitOrMark (c : Char) : Bool := c.isDigit || c == '_'
  let (whole, rest) := cs.span isDigitOrMark
  if !isPlainDecimal whole || rest.isEmpty then none
  let (fraction, rest) ←
    match rest with
    | '.' :: rest =>
      let (part, rest) := rest.span isDigitOrMark
      if areDigits Char.isDigit part then some (part, rest) else none
    | rest => some ([], rest)
  let exponent ←
    match rest with
    | [] => some 0
    | c :: rest => if c == 'e' || c == 'E' then readExponent? rest else none
  let part := fraction.filter Char.isDigit
  return .float (fitsBinary64 (whole.filter Char.isDigit ++ part) (exponent - part.length))

def readFloat? (cs : List Char) : Option Toml :=
  let body := (splitSign cs).2
  if body == ['i', 'n', 'f'] || body == ['n', 'a', 'n'] then some (.float true)
  else readDecimal? body

def digits? (cs : List Char) : Option Nat :=
  if cs.all Char.isDigit && !cs.isEmpty then some (baseValue 10 cs) else none

def daysIn (year month : Nat) : Nat :=
  if month = 2 then (if year % 4 = 0 ∧ (year % 100 ≠ 0 ∨ year % 400 = 0) then 29 else 28)
  else if month = 4 ∨ month = 6 ∨ month = 9 ∨ month = 11 then 30
  else 31

def isDay : List Char → Bool
  | [a, b, c, d, '-', e, f, '-', g, h] =>
    match digits? [a, b, c, d], digits? [e, f], digits? [g, h] with
    | some year, some month, some day =>
      1 ≤ month && month ≤ 12 && 1 ≤ day && day ≤ daysIn year month
    | _, _, _ => false
  | _ => false

def isSeconds : List Char → Bool
  | [] => true
  | ':' :: a :: b :: rest =>
    (digits? [a, b]).any (· ≤ 60) &&
      match rest with
      | [] => true
      | '.' :: fraction => (digits? fraction).isSome
      | _ => false
  | _ => false

def isClock : List Char → Bool
  | a :: b :: ':' :: c :: d :: rest =>
    (digits? [a, b]).any (· ≤ 23) && (digits? [c, d]).any (· ≤ 59) && isSeconds rest
  | _ => false

def isOffset : List Char → Bool
  | [] => true
  | ['Z'] | ['z'] => true
  | sign :: [a, b, ':', c, d] =>
    (sign == '+' || sign == '-') &&
      match digits? [a, b], digits? [c, d] with
      | some hour, some minute => hour ≤ 23 && minute ≤ 59
      | _, _ => false
  | _ => false

def isTime (cs : List Char) : Bool :=
  let (clock, offset) := cs.span fun c => c.isDigit || c == ':' || c == '.'
  isClock clock && isOffset offset

def isDate (cs : List Char) : Bool :=
  isDay cs || isClock cs ||
    (isDay (cs.take 10) &&
      match cs.drop 10 with
      | c :: time => (c == 'T' || c == 't' || c == ' ') && isTime time
      | [] => false)

def isWordChar (c : Char) : Bool :=
  c.isAlphanum || c == '_' || c == '+' || c == '-' || c == '.' || c == ':'

/-- The characters of an unquoted value; a single space may stand between a date and a time. -/
def spanWord (cs : List Char) : List Char × List Char :=
  let (word, rest) := cs.span isWordChar
  match rest with
  | ' ' :: d :: _ =>
    if isDay word && d.isDigit then
      let (time, rest) := (rest.drop 1).span isWordChar
      (word ++ ' ' :: time, rest)
    else (word, rest)
  | _ => (word, rest)

def ofWord? (word : List Char) : Option Toml :=
  if word == ['t', 'r', 'u', 'e'] then some (.boolean true)
  else if word == ['f', 'a', 'l', 's', 'e'] then some (.boolean false)
  else if isDate word then some .date
  else readFloat? word <|> readInteger? word

mutual

def readValue : Nat → Nat → List Char → Option (Toml × List Char)
  | 0, _, _ => none
  | fuel + 1, room, cs =>
    match cs with
    | '"' :: '"' :: '"' :: rest => do
      let rest := dropFirstNewline rest
      let (s, rest) ← readBasicLines (rest.length + 1) [] rest
      return (.string s, rest)
    | '\'' :: '\'' :: '\'' :: rest => do
      let rest := dropFirstNewline rest
      let (s, rest) ← readLiteralLines (rest.length + 1) [] rest
      return (.string s, rest)
    | '"' :: rest => do
      let (s, rest) ← readBasic (rest.length + 1) [] rest
      return (.string s, rest)
    | '\'' :: rest => do
      let (s, rest) ← readLiteral [] rest
      return (.string s, rest)
    | '[' :: rest =>
      match room with
      | 0 => none
      | room + 1 => do
        let (items, rest) ← readItems fuel room rest
        return (.array items, rest)
    | '\x7b' :: rest =>
      match room with
      | 0 => none
      | room + 1 => do
        let (members, rest) ← readMembers fuel room [] rest
        return (.table .inline members, rest)
    | cs => do
      let (word, rest) := spanWord cs
      return (← ofWord? word, rest)

def readItems : Nat → Nat → List Char → Option (List Toml × List Char)
  | 0, _, _ => none
  | fuel + 1, room, cs => do
    match ← skipLines (cs.length + 1) cs with
    | ']' :: rest => return ([], rest)
    | cs =>
      let (item, rest) ← readValue fuel room cs
      match ← skipLines (rest.length + 1) rest with
      | ',' :: rest =>
        let (items, rest) ← readItems fuel room rest
        return (item :: items, rest)
      | ']' :: rest => return ([item], rest)
      | _ => none

def readMembers : Nat → Nat → Members → List Char → Option (Members × List Char)
  | 0, _, _, _ => none
  | fuel + 1, room, done, cs => do
    match ← skipLines (cs.length + 1) cs with
    | '\x7d' :: rest => return (done, rest)
    | cs =>
      let ((path, key), rest) ← readKey cs
      match ← skipLines (rest.length + 1) rest with
      | '=' :: rest =>
        let (value, rest) ← readValue fuel room (← skipLines (rest.length + 1) rest)
        let done ← assign path key value done
        match ← skipLines (rest.length + 1) rest with
        | ',' :: rest => readMembers fuel room done rest
        | '\x7d' :: rest => return (done, rest)
        | _ => none
      | _ => none

end

/-- The document so far: its members and the path that the latest header opened. -/
structure Progress where
  members : Members
  header : List String

def readHeader (double : Bool) (p : Progress) (cs : List Char) :
    Option (Progress × List Char) := do
  let ((path, key), rest) ← readKey cs
  let header := path ++ [key]
  match double, rest with
  | false, ']' :: rest => return (⟨← openTable path key p.members, header⟩, rest)
  | true, ']' :: ']' :: rest => return (⟨← openNextTable path key p.members, header⟩, rest)
  | _, _ => none

def readAssignment (p : Progress) (cs : List Char) : Option (Progress × List Char) := do
  let ((path, key), rest) ← readKey cs
  match rest with
  | '=' :: rest =>
    let rest := skipSpaces rest
    let (value, rest) ← readValue (rest.length + 1) nestingBound rest
    return (⟨← changeOpened p.header (assign path key value) p.members, p.header⟩, rest)
  | _ => none

def readStatement (p : Progress) : List Char → Option (Progress × List Char)
  | '[' :: '[' :: rest => readHeader true p rest
  | '[' :: rest => readHeader false p rest
  | cs => readAssignment p cs

def readStatements : Nat → Progress → List Char → Option Members
  | 0, _, _ => none
  | fuel + 1, p, cs => do
    match ← skipLines (cs.length + 1) cs with
    | [] => return p.members
    | cs =>
      let (p, rest) ← readStatement p cs
      match skipSpaces rest with
      | [] => return p.members
      | '#' :: rest => readStatements fuel p (← skipComment rest)
      | rest => readStatements fuel p (← dropNewline? rest)

def parse? (text : String) : Option Toml := do
  let cs := text.toList
  let cs := if cs.head? == some '\ufeff' then cs.drop 1 else cs
  return .table .header (← readStatements (cs.length + 1) ⟨[], []⟩ cs)

end Toml

end ForeignCall
