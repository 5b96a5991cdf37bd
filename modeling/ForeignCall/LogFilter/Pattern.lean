import ForeignCall.Json.Reader
import ForeignCall.Text.Alphanumeric
import ForeignCall.Text.Blank

/-!
Patterns that values of log fields may match: which texts are well-formed.

A pattern is a regular expression. It works on Unicode characters unless a flag says bytes, and then
everything in it has to be ASCII. Of Unicode it knows the code points only: the classes of digits,
blanks and words, classes by property, word boundaries and folding of case exist for ASCII alone.

A pattern stands between braces and commas and after an equals sign, so that it holds neither a
closing brace nor a comma nor an equals sign. What would need one, such as a counted repetition, is
never well-formed.
-/

set_option autoImplicit false

namespace ForeignCall

namespace LogFilter

namespace Pattern

structure Flags where
  foldsCase : Bool := false
  unicode : Bool := true
  spaced : Bool := false
  deriving DecidableEq, Repr

def skipComments : Bool → List Char → List Char
  | _, [] => []
  | true, c :: rest => skipComments (c != '\n') rest
  | false, c :: rest =>
    if isBlank c then skipComments false rest
    else if c == '#' then skipComments true rest
    else c :: rest

def Flags.skip (f : Flags) (cs : List Char) : List Char :=
  if f.spaced then skipComments false cs else cs

inductive Atom where
  | literal (code : Nat) (asByte : Bool)
  | wordClass (negated : Bool)
  | edge
  | wordBoundary
  deriving DecidableEq, Repr

def readHex (f : Flags) : Nat → Nat → List Char → Option (Nat × List Char)
  | 0, n, cs => some (n, cs)
  | count + 1, n, cs =>
    match f.skip cs with
    | [] => none
    | c :: rest => do readHex f count (n * 16 + (← Json.hexValue? c)) rest

def escapedLetter? (c : Char) : Option Atom :=
  if ['d', 's', 'w'].contains c then some (.wordClass false)
  else if ['D', 'S', 'W'].contains c then some (.wordClass true)
  else if ['A', 'z'].contains c then some .edge
  else if ['b', 'B', '<', '>'].contains c then some .wordBoundary
  else
    ([('a', 0x7), ('f', 0xC), ('t', 0x9), ('n', 0xA), ('r', 0xD), ('v', 0xB)].lookup c).map
      (.literal · false)

def codePointDigits? (c : Char) : Option Nat := [('x', 2), ('u', 4), ('U', 8)].lookup c

/-- What follows a backslash. Of ASCII, everything but letters, digits and angle brackets may stand
there for itself. -/
def readEscape (f : Flags) : List Char → Option (Atom × List Char)
  | [] => none
  | c :: rest =>
    match codePointDigits? c with
    | some count => do
      let (code, rest) ← readHex f count 0 rest
      if code.isValidChar then return (.literal code (c == 'x'), rest) else none
    | none =>
      if c.isAlphanum || c == '<' || c == '>' then (escapedLetter? c).map (·, rest)
      else if c.toNat < 0x80 then some (.literal c.toNat false, rest)
      else none

def Flags.allows (f : Flags) : Atom → Bool
  | .literal code asByte => if f.unicode then !f.foldsCase else !asByte || code < 0x80
  | .wordClass negated => !f.unicode && !negated
  | .edge => true
  | .wordBoundary => !f.unicode

def classNames : List String :=
  ["alnum", "alpha", "ascii", "blank", "cntrl", "digit", "graph", "lower", "print", "punct",
    "space", "upper", "word", "xdigit"]

def readNamedClass? : List Char → Option (Bool × List Char)
  | ':' :: cs =>
    let (negated, cs) :=
      match cs with
      | '^' :: rest => (true, rest)
      | cs => (false, cs)
    let (name, rest) := cs.span (· != ':')
    match rest with
    | ':' :: ']' :: rest =>
      if classNames.contains (String.ofList name) then some (negated, rest) else none
    | _ => none
  | _ => none

def readEntry (f : Flags) : List Char → Option (Atom × List Char)
  | [] => none
  | '\\' :: rest => readEscape f rest
  | c :: rest => some (.literal c.toNat false, rest)

def Flags.member? (f : Flags) : Atom → Option Nat
  | .literal code _ => if f.unicode || code < 0x80 then some code else none
  | _ => none

/-- What follows a range in a class, or an entry on its own. A hyphen makes a range unless the class
ends or another hyphen follows. -/
def readRange (f : Flags) (cs : List Char) : Option (List Char) := do
  let (first, rest) ← readEntry f cs
  let single : Option (List Char) :=
    if (f.member? first).isSome || (first == .wordClass false && f.allows first) then
      some (f.skip rest)
    else none
  match f.skip rest with
  | '-' :: rest =>
    match f.skip rest with
    | ']' :: _ | '-' :: _ => single
    | rest =>
      let (last, rest) ← readEntry f rest
      if (← f.member? first) ≤ (← f.member? last) then return rest else none
  | _ => single

/-- What follows the marks at the front of a class: whether it is negated, whether it has members so
far, and the rest. Hyphens there stand for themselves, and so does a bracket right at the front. -/
def openClass (f : Flags) (cs : List Char) : Bool × Bool × List Char :=
  let (negated, cs) :=
    match f.skip cs with
    | '^' :: rest => (true, f.skip rest)
    | cs => (false, cs)
  let rec dropHyphens (seen : Bool) : List Char → Bool × List Char
    | '-' :: rest => dropHyphens true rest
    | c :: rest =>
      if seen && f.spaced && isBlank c then dropHyphens seen rest else (seen, c :: rest)
    | [] => (seen, [])
  let (seen, rest) := dropHyphens false cs
  match seen, rest with
  | false, ']' :: rest => (negated, true, rest)
  | seen, rest => (negated, seen, rest)

mutual

/-- A class after its opening bracket: whether it has members, and what follows it. Folding of case
needs a class without members; on bytes, no class may be negated. -/
def readClass : Nat → Flags → List Char → Option (Bool × List Char)
  | 0, _, _ => none
  | fuel + 1, f, cs => do
    let (negated, seen, rest) := openClass f cs
    let (seen, rest) ← readMembers fuel f seen rest
    let refused := if f.unicode then f.foldsCase && seen else negated
    if refused then none else return (seen || negated, rest)

def readMembers : Nat → Flags → Bool → List Char → Option (Bool × List Char)
  | 0, _, _, _ => none
  | fuel + 1, f, seen, cs => do
    match f.skip cs with
    | [] => none
    | ']' :: rest => return (seen, rest)
    | '&' :: '&' :: rest | '-' :: '-' :: rest | '~' :: '~' :: rest => readMembers fuel f seen rest
    | '[' :: rest =>
      match readNamedClass? rest with
      | some (negated, rest) =>
        if negated && !f.unicode then none
        readMembers fuel f true rest
      | none =>
        let (inner, rest) ← readClass fuel f rest
        readMembers fuel f (seen || inner) rest
    | cs => readMembers fuel f true (← readRange f cs)

end

def isGroupName : List Char → Bool
  | [] => false
  | c :: rest =>
    (c == '_' || isAlphabetic c) &&
      rest.all fun c => c == '_' || c == '.' || c == '[' || c == ']' || isAlphanumeric c

def Flags.change (f : Flags) : Bool → List Char → Flags
  | _, [] => f
  | on, c :: rest =>
    if c == '-' then f.change false rest
    else if c == 'i' then { f with foldsCase := on }.change on rest
    else if c == 'u' then { f with unicode := on }.change on rest
    else if c == 'x' then { f with spaced := on }.change on rest
    else f.change on rest

/-- Whether characters are changes of flags: each flag and the hyphen once, and no hyphen at the
end. -/
def areChanges (cs : List Char) : Bool :=
  cs.all ("-imsUuRx".toList.contains ·) && cs.eraseDups.length == cs.length &&
    cs.getLast? != some '-'

structure Progress where
  flags : Flags := {}
  around : List Flags := []
  groupNames : List (List Char) := []
  repeatable : Bool := false

/-- A group after its opening parenthesis; flags for what follows are written like one. -/
def openGroup (p : Progress) (cs : List Char) : Option (Progress × List Char) :=
  let inside (f : Flags) : Progress :=
    { p with flags := f, around := p.flags :: p.around, repeatable := false }
  let named (cs : List Char) : Option (Progress × List Char) :=
    let (name, rest) := cs.span (· != '>')
    if rest.isEmpty || !isGroupName name || p.groupNames.contains name then none
    else some ({ inside p.flags with groupNames := name :: p.groupNames }, rest.drop 1)
  match p.flags.skip cs with
  | '?' :: '=' :: _ | '?' :: '!' :: _ | '?' :: '<' :: '=' :: _ | '?' :: '<' :: '!' :: _ => none
  | '?' :: 'P' :: '<' :: rest | '?' :: '<' :: rest => named rest
  | '?' :: rest =>
    let (changes, rest) := rest.span fun c => c != ':' && c != ')'
    let flags := p.flags.change true changes
    if !areChanges changes then none
    else
      match rest with
      | ':' :: rest => some (inside flags, rest)
      | _ :: rest =>
        if changes.isEmpty then none else some ({ p with flags, repeatable := false }, rest)
      | [] => none
  | rest => some (inside p.flags, rest)

def readPart (p : Progress) : List Char → Option (Progress × List Char)
  | '(' :: rest => openGroup p rest
  | ')' :: rest =>
    match p.around with
    | flags :: around => some ({ p with flags, around, repeatable := true }, rest)
    | [] => none
  | '|' :: rest => some ({ p with repeatable := false }, rest)
  | '[' :: rest => do
    let (_, rest) ← readClass (2 * rest.length + 1) p.flags rest
    return ({ p with repeatable := true }, rest)
  | '\x7b' :: _ => none
  | '\\' :: rest => do
    let (atom, rest) ← readEscape p.flags rest
    if p.flags.allows atom then return ({ p with repeatable := true }, rest) else none
  | c :: rest =>
    if c == '?' || c == '*' || c == '+' then
      if p.repeatable then some (p, if rest.head? == some '?' then rest.drop 1 else rest) else none
    else
      let allowed :=
        if c == '.' then p.flags.unicode
        else c == '^' || c == '$' || p.flags.allows (.literal c.toNat false)
      if allowed then some ({ p with repeatable := true }, rest) else none
  | [] => none

def areParts : Nat → Progress → List Char → Bool
  | 0, _, _ => false
  | fuel + 1, p, cs =>
    match p.flags.skip cs with
    | [] => p.around.isEmpty
    | cs =>
      match readPart p cs with
      | some (p, rest) => areParts fuel p rest
      | none => false

end Pattern

def isPattern (cs : List Char) : Bool := Pattern.areParts (cs.length + 1) {} cs

end LogFilter

end ForeignCall
