import ForeignCall.Json

/-!
Reading JSON text.

The grammar is strict: no trailing commas, no leading zeros, no raw control characters in strings,
nothing but blanks after the value. Nesting is not limited here; a reader of records limits it.
-/

set_option autoImplicit false

namespace ForeignCall

namespace Json

def isBlank (c : Char) : Bool := c == ' ' || c == '\t' || c == '\n' || c == '\r'

def skipBlanks (cs : List Char) : List Char := cs.dropWhile isBlank

def hexValue? (c : Char) : Option Nat :=
  if '0' ≤ c ∧ c ≤ '9' then some (c.toNat - '0'.toNat)
  else if 'a' ≤ c ∧ c ≤ 'f' then some (c.toNat - 'a'.toNat + 10)
  else if 'A' ≤ c ∧ c ≤ 'F' then some (c.toNat - 'A'.toNat + 10)
  else none

def hexQuad? (a b c d : Char) : Option Nat := do
  return (((← hexValue? a) * 16 + (← hexValue? b)) * 16 + (← hexValue? c)) * 16 + (← hexValue? d)

def escaped? (c : Char) : Option Char :=
  match c with
  | '"' => some '"'
  | '\\' => some '\\'
  | '/' => some '/'
  | 'b' => some (.ofNat 8)
  | 'f' => some (.ofNat 12)
  | 'n' => some '\n'
  | 'r' => some '\r'
  | 't' => some '\t'
  | _ => none

/-- Text under construction: the characters so far in reverse, a first half of a surrogate pair
that waits for its second, and whether every half found its partner. -/
structure Draft where
  chars : List Char
  waiting : Option Nat
  paired : Bool

namespace Draft

def empty : Draft := ⟨[], none, true⟩

def push (d : Draft) (c : Char) : Draft := ⟨c :: d.chars, none, d.paired && d.waiting.isNone⟩

def pushUnit (d : Draft) (u : Nat) : Draft :=
  if 0xD800 ≤ u ∧ u < 0xDC00 then ⟨d.chars, some u, d.paired && d.waiting.isNone⟩
  else if 0xDC00 ≤ u ∧ u < 0xE000 then
    match d.waiting with
    | some high => ⟨.ofNat (0x10000 + (high - 0xD800) * 0x400 + (u - 0xDC00)) :: d.chars, none, d.paired⟩
    | none => ⟨d.chars, none, false⟩
  else d.push (.ofNat u)

def finish (d : Draft) : Option String :=
  if d.paired && d.waiting.isNone then some (String.ofList d.chars.reverse) else none

end Draft

def readText (d : Draft) : List Char → Option (Option String × List Char)
  | [] => none
  | '"' :: rest => some (d.finish, rest)
  | '\\' :: 'u' :: a :: b :: c :: e :: rest =>
    match hexQuad? a b c e with
    | some u => readText (d.pushUnit u) rest
    | none => none
  | '\\' :: c :: rest =>
    match escaped? c with
    | some c => readText (d.push c) rest
    | none => none
  | c :: rest => if c.toNat < 0x20 || c == '\\' then none else readText (d.push c) rest

def spanDigits (cs : List Char) : List Char × List Char := cs.span Char.isDigit

def readFraction (cs : List Char) : Option (List Char × List Char) :=
  match cs with
  | '.' :: rest =>
    let (digits, rest) := spanDigits rest
    if digits.isEmpty then none else some ('.' :: digits, rest)
  | _ => some ([], cs)

def readExponent (cs : List Char) : Option (List Char × List Char) :=
  match cs with
  | mark :: rest =>
    if mark == 'e' || mark == 'E' then
      let (sign, rest) :=
        match rest with
        | '+' :: rest => (['+'], rest)
        | '-' :: rest => (['-'], rest)
        | rest => ([], rest)
      let (digits, rest) := spanDigits rest
      if digits.isEmpty then none else some (mark :: sign ++ digits, rest)
    else some ([], cs)
  | [] => some ([], [])

def digitsValue (digits : List Char) : Nat :=
  digits.foldl (fun n c => n * 10 + (c.toNat - '0'.toNat)) 0

def readMagnitude (negative : Bool) (cs : List Char) : Option (Json × List Char) := do
  let (whole, rest) := spanDigits cs
  if whole.isEmpty || (whole.head? == some '0' && whole.length != 1) then none
  let (fraction, rest) ← readFraction rest
  let (exponent, rest) ← readExponent rest
  let value := digitsValue whole
  if fraction.isEmpty && exponent.isEmpty && !(negative && value == 0) then
    return (.integer (if negative then -(value : Int) else value), rest)
  else
    let sign := if negative then ['-'] else []
    return (.decimal (String.ofList (sign ++ whole ++ fraction ++ exponent)), rest)

def readNumber : List Char → Option (Json × List Char)
  | '-' :: rest => readMagnitude true rest
  | cs => readMagnitude false cs

def dropWord? (word : List Char) (cs : List Char) : Option (List Char) :=
  if word.isPrefixOf cs then some (cs.drop word.length) else none

mutual

/-- One value at the front. Every step takes at least one character, so as many steps as there are
characters are enough. -/
def readValue : Nat → List Char → Option (Json × List Char)
  | 0, _ => none
  | fuel + 1, cs =>
    match skipBlanks cs with
    | [] => none
    | '"' :: rest => do
      let (s, rest) ← readText .empty rest
      return (.string s, rest)
    | '[' :: rest =>
      match skipBlanks rest with
      | ']' :: rest => some (.array [], rest)
      | rest => do
        let (items, rest) ← readItems fuel rest
        return (.array items, rest)
    | '\x7b' :: rest =>
      match skipBlanks rest with
      | '\x7d' :: rest => some (.object [], rest)
      | rest => do
        let (members, rest) ← readMembers fuel rest
        return (.object members, rest)
    | 'n' :: rest => do return (.null, ← dropWord? ['u', 'l', 'l'] rest)
    | 't' :: rest => do return (.bool true, ← dropWord? ['r', 'u', 'e'] rest)
    | 'f' :: rest => do return (.bool false, ← dropWord? ['a', 'l', 's', 'e'] rest)
    | cs => readNumber cs

def readItems : Nat → List Char → Option (List Json × List Char)
  | 0, _ => none
  | fuel + 1, cs => do
    let (item, rest) ← readValue fuel cs
    match skipBlanks rest with
    | ',' :: rest =>
      let (items, rest) ← readItems fuel rest
      return (item :: items, rest)
    | ']' :: rest => return ([item], rest)
    | _ => none

def readMembers : Nat → List Char → Option (List (Option String × Json) × List Char)
  | 0, _ => none
  | fuel + 1, cs =>
    match skipBlanks cs with
    | '"' :: rest => do
      let (name, rest) ← readText .empty rest
      match skipBlanks rest with
      | ':' :: rest =>
        let (value, rest) ← readValue fuel rest
        match skipBlanks rest with
        | ',' :: rest =>
          let (members, rest) ← readMembers fuel rest
          return ((name, value) :: members, rest)
        | '\x7d' :: rest => return ([(name, value)], rest)
        | _ => none
      | _ => none
    | _ => none

end

def parse? (s : String) : Option Json := do
  let cs := s.toList
  let (value, rest) ← readValue (cs.length + 1) cs
  if (skipBlanks rest).isEmpty then some value else none

end Json

end ForeignCall
