import ForeignCall.Text.Quoted
import ForeignCall.Value

/-!
Script values as developers see them.
-/

set_option autoImplicit false

namespace ForeignCall

namespace Value

mutual

def debugText : Value → String
  | .undefined => "Undefined"
  | .null => "Null"
  | .bool b => "Bool(" ++ (if b then "true" else "false") ++ ")"
  | .number n => "Number(" ++ n.text ++ ")"
  | .string s => "String(" ++ quoted s ++ ")"
  | .array items => "[" ++ debugItems items ++ "]"
  | .object w => "Object(" ++ w.typeName ++ " @ " ++ hexAddress w.address ++ ")"
  | .function _ => "Function"

def debugItems : List Value → String
  | [] => ""
  | [v] => v.debugText
  | v :: rest => v.debugText ++ ", " ++ debugItems rest

end

end Value

end ForeignCall
