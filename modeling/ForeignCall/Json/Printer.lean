import ForeignCall.Json

/-!
Writing JSON text, without blanks.
-/

set_option autoImplicit false

namespace ForeignCall

namespace Json

def hexDigit (n : Nat) : Char := Nat.digitChar (n % 16)

/-- A character inside a string literal: quotes, backslashes and control characters are escaped. -/
def writeChar (c : Char) : List Char :=
  if c == '"' then ['\\', '"']
  else if c == '\\' then ['\\', '\\']
  else if c.toNat < 0x20 then
    ['\\', 'u', '0', '0', hexDigit (c.toNat / 16), hexDigit c.toNat]
  else [c]

def writeText (s : String) : String :=
  String.ofList ('"' :: s.toList.flatMap writeChar ++ ['"'])

def writeString : Option String → String
  | some s => writeText s
  | none => "\"\\ud800\""

mutual

def render : Json → String
  | .null => "null"
  | .bool b => if b then "true" else "false"
  | .integer i => toString i
  | .decimal literal => literal
  | .string s => writeString s
  | .array items => "[" ++ renderItems items ++ "]"
  | .object members => "\x7b" ++ renderMembers members ++ "\x7d"

def renderItems : List Json → String
  | [] => ""
  | [item] => item.render
  | item :: rest => item.render ++ "," ++ renderItems rest

def renderMembers : List (Option String × Json) → String
  | [] => ""
  | [(name, value)] => writeString name ++ ":" ++ value.render
  | (name, value) :: rest => writeString name ++ ":" ++ value.render ++ "," ++ renderMembers rest

end

end Json

end ForeignCall
