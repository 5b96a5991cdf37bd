import ForeignCall.Slot
import ForeignCall.Text.Unprintable

/-!
Quoted text for developers: a string between double quotes with everything unreadable escaped.
-/

set_option autoImplicit false

namespace ForeignCall

def quotedChar (c : Char) : String :=
  if c.toNat = 0 then "\\0"
  else if c == '\t' then "\\t"
  else if c == '\n' then "\\n"
  else if c == '\r' then "\\r"
  else if c == '"' then "\\\""
  else if c == '\\' then "\\\\"
  else if isUnprintable c then "\\u\x7b" ++ hexDigits c.toNat ++ "\x7d"
  else String.singleton c

def quoted (s : String) : String := "\"" ++ String.join (s.toList.map quotedChar) ++ "\""

end ForeignCall
