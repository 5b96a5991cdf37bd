import ForeignCall.LogFilter.Pattern

/-!
Log filters: which texts are well-formed.

A filter is a list of directives between commas, empty ones aside. A directive is a level, or a
target with an optional level after `=`, and may name a span in brackets and a field of it in braces,
with a value after `=` that is a number or a pattern. Nothing here logs; a filter is only checked
before a program starts.

The marks of a directive are looked for after the blanks in front of it, but its parts are cut out of
the whole text at the positions of the marks. So behind blanks every part begins and ends too early,
and no level can stand there.
-/

set_option autoImplicit false

namespace ForeignCall

namespace LogFilter

def dropSign : List Char → List Char
  | '+' :: rest => rest
  | '-' :: rest => rest
  | cs => cs

def areDigits (cs : List Char) : Bool := !cs.isEmpty && cs.all Char.isDigit

def number? (cs : List Char) : Option Nat :=
  let digits := if cs.head? == some '+' then cs.drop 1 else cs
  if areDigits digits then some (Json.digitsValue digits) else none

/-- Whether characters are a number: decimal digits with an optional sign, point and exponent, or a
word for infinity or for no number. -/
def isNumber (cs : List Char) : Bool :=
  let body := (dropSign cs).map Char.toLower
  if ["inf", "infinity", "nan"].contains (String.ofList body) then true
  else
    let (mantissa, exponent) := body.span (· != 'e')
    let (whole, fraction) := mantissa.span (· != '.')
    areDigits (whole ++ fraction.drop 1) && (exponent.isEmpty || areDigits (dropSign (exponent.drop 1)))

def levelWords : List (List Char) :=
  ["error", "warn", "info", "debug", "trace", "off"].map String.toList

def isLevel (cs : List Char) : Bool :=
  match number? cs with
  | some n => n ≤ 5
  | none => cs.isEmpty || levelWords.contains (cs.map Char.toLower)

/-- Whether characters are a field: a name, and a value after an equals sign if there is one. What
follows a second equals sign is not looked at. -/
def isField (cs : List Char) : Bool :=
  !cs.isEmpty &&
    match cs.dropWhile (· != '=') with
    | [] => true
    | _ :: rest =>
      let value := rest.takeWhile (· != '=')
      isNumber value || isPattern value

def positioned : Nat → List Char → List (Nat × Char)
  | _, [] => []
  | i, c :: rest => (i, c) :: positioned (i + c.utf8Size) rest

def cut (cs : List Char) (start stop : Nat) : List Char :=
  ((positioned 0 cs).filter fun (i, _) => start ≤ i && i < stop).map (·.2)

inductive Place where
  | start
  | levelOrTarget
  | span
  | field (start : Nat)
  | fields
  | target
  | level (start : Nat)
  deriving DecidableEq, Repr

def beginsTarget (c : Char) : Bool := c == '-' || c == ':' || c == '_' || isAlphanumeric c

def step (text : List Char) (p : Place) (i : Nat) (c : Char) : Option Place :=
  match p with
  | .start =>
    if c == '[' then some .span else if beginsTarget c then some .levelOrTarget else none
  | .levelOrTarget =>
    if c == '=' then some (.level (i + 1)) else if c == '[' then some .span else some .levelOrTarget
  | .span => if c == ']' then some .target else if c == '\x7b' then some (.field (i + 1)) else some .span
  | .field start =>
    if c != '\x7d' then some (.field start)
    else if isField (cut text start i) then some .fields
    else none
  | .fields => if c == ']' then some .target else none
  | .target => if c == '=' then some (.level (i + 1)) else none
  | .level start => some (.level start)

def mayEnd (text : List Char) : Place → Bool
  | .levelOrTarget | .target => true
  | .level start => isLevel (cut text start (String.ofList text).utf8ByteSize)
  | .start | .span | .field _ | .fields => false

def isDirective (text : List Char) : Bool :=
  ((positioned 0 (trimBlanks text)).foldlM (fun p (i, c) => step text p i c) .start).any
    (mayEnd text)

def parts (cs : List Char) : List (List Char) :=
  cs.foldr
    (fun c parts =>
      match parts with
      | [] => []
      | part :: rest => if c == ',' then [] :: part :: rest else (c :: part) :: rest)
    [[]]

end LogFilter

def isLogFilter (s : String) : Bool :=
  (LogFilter.parts s.toList).all fun part => part.isEmpty || LogFilter.isDirective part

end ForeignCall
