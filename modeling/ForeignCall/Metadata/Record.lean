/-!
Introspection records: what metadata says about a native library.

A record is a type occurrence, an argument, a callable or a named entry of a namespace. Records are
plain data; whether they make sense together is decided when they are classified and planned.
-/

set_option autoImplicit false

namespace ForeignCall

inductive Width where
  | w8 | w16 | w32 | w64
  deriving DecidableEq, Repr, Inhabited

def Width.bits : Width → Nat
  | .w8 => 8
  | .w16 => 16
  | .w32 => 32
  | .w64 => 64

def Width.bytes (w : Width) : Nat := w.bits / 8

structure IntFormat where
  width : Width
  signed : Bool
  deriving DecidableEq, Repr, Inhabited

inductive Tag where
  | void
  | boolean
  | integer (format : IntFormat)
  | float
  | double
  | gtype
  | utf8
  | filename
  | array
  | interface
  | glist
  | gslist
  | ghash
  | error
  | unichar
  deriving DecidableEq, Repr, Inhabited

def Tag.intFormat? : Tag → Option IntFormat
  | .integer format => some format
  | _ => none

def Tag.nativeName : Tag → String
  | .void => "void"
  | .boolean => "gboolean"
  | .integer format => (if format.signed then "gint" else "guint") ++ toString format.width.bits
  | .float => "gfloat"
  | .double => "gdouble"
  | .gtype => "GType"
  | .utf8 => "utf8"
  | .filename => "filename"
  | .array => "array"
  | .interface => "interface"
  | .glist => "GList"
  | .gslist => "GSList"
  | .ghash => "GHashTable"
  | .error => "GError"
  | .unichar => "gunichar"

inductive Kind where
  | function | callback | struct | boxed | enum | flags | object | interface | constant | union
  | value | signal | vfunc | property | field | arg | type | unresolved
  deriving DecidableEq, Repr, Inhabited

def Kind.word : Kind → String
  | .function => "function"
  | .callback => "callback"
  | .struct => "struct"
  | .boxed => "boxed"
  | .enum => "enum"
  | .flags => "flags"
  | .object => "object"
  | .interface => "interface"
  | .constant => "constant"
  | .union => "union"
  | .value => "value"
  | .signal => "signal"
  | .vfunc => "vfunc"
  | .property => "property"
  | .field => "field"
  | .arg => "arg"
  | .type => "type"
  | .unresolved => "unresolved"

/-- How an array is represented; only plain C arrays can be converted from script arrays. -/
inductive ArrayForm where
  | c | array | pointerArray | byteArray
  deriving DecidableEq, Repr, Inhabited

inductive Direction where
  | input | output | inout
  deriving DecidableEq, Repr, Inhabited

def Direction.isIn : Direction → Bool
  | .input | .inout => true
  | .output => false

def Direction.isOut : Direction → Bool
  | .output | .inout => true
  | .input => false

inductive Transfer where
  | nothing | container | everything
  deriving DecidableEq, Repr, Inhabited

inductive Scope where
  | call | async | notified | forever
  deriving DecidableEq, Repr, Inhabited

structure TypeRecord where
  tag : Tag
  /-- Passed or stored by reference even if the kind is normally held by value. -/
  pointer : Bool := false
  interface : Option String := none
  elements : List TypeRecord := []
  arrayLength : Option Nat := none
  fixedSize : Option Nat := none
  zeroTerminated : Bool := false
  arrayForm : ArrayForm := .c
  deriving Repr, BEq, Inhabited

namespace TypeRecord

def void : TypeRecord := { tag := .void }

def byPointer (t : TypeRecord) : TypeRecord := { t with pointer := true }

def anyPointer : TypeRecord := void.byPointer

def utf8 : TypeRecord := { tag := .utf8, pointer := true }

def named (name : String) : TypeRecord := { tag := .interface, interface := some name }

def cArray (element : TypeRecord) : TypeRecord :=
  { tag := .array, pointer := true, elements := [element] }

def list (element : TypeRecord) : TypeRecord :=
  { tag := .glist, pointer := true, elements := [element] }

def singlyLinked (element : TypeRecord) : TypeRecord :=
  { tag := .gslist, pointer := true, elements := [element] }

def withLength (t : TypeRecord) (position : Nat) : TypeRecord :=
  { t with arrayLength := some position }

def withFixedSize (t : TypeRecord) (size : Nat) : TypeRecord := { t with fixedSize := some size }

def terminated (t : TypeRecord) : TypeRecord := { t with zeroTerminated := true }

end TypeRecord

structure ArgumentRecord where
  name : String
  type : TypeRecord
  direction : Direction := .input
  transfer : Transfer := .nothing
  nullable : Bool := false
  callerAllocates : Bool := false
  closure : Option Nat := none
  destroy : Option Nat := none
  scope : Option Scope := none
  deriving Repr, BEq, Inhabited

structure CallableRecord where
  namespaceName : String := ""
  name : String
  container : Option String := none
  symbol : Option String := none
  arguments : List ArgumentRecord := []
  returnType : TypeRecord := .void
  returnTransfer : Transfer := .nothing
  mayReturnNull : Bool := false
  skipReturn : Bool := false
  isMethod : Bool := false
  isConstructor : Bool := false
  throws : Bool := false
  deriving Repr, BEq, Inhabited

namespace CallableRecord

def symbolName (c : CallableRecord) : String := c.symbol.getD c.name

/-- `Namespace.name`, or `Namespace.Container.name` for what is declared on a type. -/
def qualifiedName (c : CallableRecord) : String :=
  match c.container with
  | some container => c.namespaceName ++ "." ++ container ++ "." ++ c.name
  | none => c.namespaceName ++ "." ++ c.name

/-- Methods take an implicit receiver, constructors never do. -/
def takesReceiver (c : CallableRecord) : Bool := c.isMethod && !c.isConstructor

def withArgument (c : CallableRecord) (a : ArgumentRecord) : CallableRecord :=
  { c with arguments := c.arguments ++ [a] }

def returning (c : CallableRecord) (type : TypeRecord) (transfer : Transfer) : CallableRecord :=
  { c with returnType := type, returnTransfer := transfer }

def methodOf (c : CallableRecord) (container : String) : CallableRecord :=
  { c with container := some container, isMethod := true }

end CallableRecord

structure EntryRecord where
  namespaceName : String := ""
  name : String
  kind : Kind
  size : Option Nat := none
  storage : Option Tag := none
  typeNumber : Option Nat := none
  parent : Option String := none
  methods : List CallableRecord := []
  signature : Option CallableRecord := none
  deriving Repr, BEq, Inhabited

namespace EntryRecord

def qualifiedName (e : EntryRecord) : String := e.namespaceName ++ "." ++ e.name

def method? (e : EntryRecord) (name : String) : Option CallableRecord :=
  e.methods.find? (·.name == name)

end EntryRecord

end ForeignCall
