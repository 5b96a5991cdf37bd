import ForeignCall.Repository

/-!
Type descriptors: type occurrences with their names resolved and their elements classified.

A descriptor is what conversions dispatch on. Sizes follow the native storage of one occurrence:
whatever is held by reference is as large as a pointer.
-/

set_option autoImplicit false

namespace ForeignCall

inductive TypeFault where
  | noFixedSize (tag : Tag)
  | unresolvedInterface (name : String)
  | missingInterfaceName
  | unsupportedInfo (name : String) (kind : Kind)
  | missingElementType (tag : Tag)
  | invalidStorage (name : String)
  deriving DecidableEq, Repr

def TypeFault.message : TypeFault → String
  | .noFixedSize tag => s!"Unhandled tag type: {tag.nativeName}"
  | .unresolvedInterface name => s!"Unresolved interface type: {name}"
  | .missingInterfaceName => "Interface occurrence without a type name"
  | .unsupportedInfo name kind => s!"Unsupported info type {kind.word} for {name}"
  | .missingElementType tag => s!"Container type {tag.nativeName} has no element type"
  | .invalidStorage name => s!"Enum {name} has an invalid storage type"

inductive ArrayLength where
  | parameter (position : Nat)
  | fixed (count : Nat)
  | zeroTerminated
  | unspecified
  deriving DecidableEq, Repr, Inhabited

inductive BasicType where
  | void
  | boolean
  | integer (format : IntFormat)
  | float
  | double
  | gtype
  | unichar
  | string (filename : Bool)
  | error
  deriving DecidableEq, Repr, Inhabited

inductive NamedType where
  | enumeration (storage : IntFormat) (flags : Bool)
  /-- Structs and unions, which are held by value, and boxed types, which are not. -/
  | structured (size : Option Nat) (byValue : Bool)
  | object
  | callback
  deriving DecidableEq, Repr, Inhabited

/-- A classified type occurrence; `pointer` says that the occurrence is by reference. -/
inductive Descriptor where
  | basic (type : BasicType) (pointer : Bool)
  | named (type : NamedType) (name : String) (pointer : Bool)
  | array (element : Descriptor) (length : ArrayLength) (form : ArrayForm) (pointer : Bool)
  | list (element : Descriptor) (singlyLinked : Bool) (pointer : Bool)
  | hash (key value : Descriptor) (pointer : Bool)
  deriving DecidableEq, Repr, Inhabited

def pointerSize : Nat := 8

namespace Descriptor

def isPointer : Descriptor → Bool
  | .basic _ p | .named _ _ p | .array _ _ _ p | .list _ _ p | .hash _ _ p => p

def byReference : Descriptor → Descriptor
  | .basic t _ => .basic t true
  | .named t n _ => .named t n true
  | .array e l f _ => .array e l f true
  | .list e s _ => .list e s true
  | .hash k v _ => .hash k v true

def name? : Descriptor → Option String
  | .named _ name _ => some name
  | _ => none

def ownsMemory : Descriptor → Bool
  | .basic (.string _) _ | .basic .error _ => true
  | .basic _ _ => false
  | .named (.structured _ byValue) _ pointer => !byValue || pointer
  | .named .object _ _ => true
  | .named _ _ _ => false
  | .array .. | .list .. | .hash .. => true

def isInlineStruct : Descriptor → Bool
  | .named (.structured _ true) _ false => true
  | _ => false

def isReference : Descriptor → Bool
  | .named .object _ _ => true
  | .named (.structured _ byValue) _ pointer => !byValue || pointer
  | _ => false

def acceptsNull : Descriptor → Bool
  | .basic .void pointer => pointer
  | .basic (.string _) _ | .basic .error _ => true
  | .basic _ _ => false
  | .named (.structured _ byValue) _ pointer => !byValue || pointer
  | .named .object _ _ | .named .callback _ _ => true
  | .named (.enumeration ..) _ _ => false
  | .array .. | .list .. | .hash .. => true

def size : Descriptor → Nat
  | .basic .boolean _ | .basic .float _ | .basic .unichar _ => 4
  | .basic (.integer format) _ => format.width.bytes
  | .named (.enumeration storage _) _ false => storage.width.bytes
  | .named (.structured (some size) true) _ false => size
  | _ => pointerSize

/-- Size of the value in an argument slot or an output cell. An inline struct travels as the
address of its block. -/
def slotSize (d : Descriptor) : Nat := if d.isInlineStruct then pointerSize else d.size

/-- Alignment of a stored occurrence: the least power of two that is no less than its size, between
one and the size of a pointer. -/
def align (d : Descriptor) : Nat :=
  if d.size ≤ 1 then 1 else if d.size ≤ 2 then 2 else if d.size ≤ 4 then 4 else pointerSize

def displayName : Descriptor → String
  | .basic .void _ => Tag.void.nativeName
  | .basic .boolean _ => "Boolean"
  | .basic (.integer _) _ | .basic .float _ | .basic .double _ => "Number"
  | .basic .gtype _ => "GType"
  | .basic .unichar _ => "Char"
  | .basic (.string _) _ => "String"
  | .basic .error _ => Tag.error.nativeName
  | .named _ name _ => name
  | .array element .. | .list element .. => element.displayName ++ "[]"
  | .hash .. => Tag.ghash.nativeName

end Descriptor

def Tag.size? : Tag → Option Nat
  | .boolean | .float | .unichar => some 4
  | .integer format => some format.width.bytes
  | .double | .gtype => some 8
  | _ => none

namespace Repository

variable (r : Repository)

def classifyNamed (interface : Option String) (pointer : Bool) : Except TypeFault Descriptor :=
  match interface with
  | none => .error .missingInterfaceName
  | some name =>
    match r.resolve? name with
    | none => .error (.unresolvedInterface name)
    | some entry =>
      let named (type : NamedType) : Except TypeFault Descriptor :=
        .ok (.named type entry.qualifiedName pointer)
      match entry.kind with
      | .struct | .union => named (.structured entry.size true)
      | .boxed => named (.structured entry.size false)
      | .enum | .flags =>
        match (entry.storage.getD (.integer ⟨.w32, false⟩)).intFormat? with
        | some format => named (.enumeration format (entry.kind == .flags))
        | none => .error (.invalidStorage name)
      | .object | .interface => named .object
      | .callback => named .callback
      | kind => .error (.unsupportedInfo name kind)

/-- How the length of an array occurrence is known: a linked argument goes before a declared size,
and that before a terminator. -/
def arrayLengthOf (linked fixed : Option Nat) (zeroTerminated : Bool) : ArrayLength :=
  match linked, fixed with
  | some position, _ => .parameter position
  | none, some count => .fixed count
  | none, none => if zeroTerminated then .zeroTerminated else .unspecified

def classify : TypeRecord → Except TypeFault Descriptor
  | ⟨tag, pointer, interface, elements, arrayLength, fixedSize, zeroTerminated, arrayForm⟩ =>
    match tag with
    | .void => .ok (.basic .void pointer)
    | .boolean => .ok (.basic .boolean pointer)
    | .integer format => .ok (.basic (.integer format) pointer)
    | .float => .ok (.basic .float pointer)
    | .double => .ok (.basic .double pointer)
    | .gtype => .ok (.basic .gtype pointer)
    | .unichar => .ok (.basic .unichar pointer)
    | .utf8 => .ok (.basic (.string false) pointer)
    | .filename => .ok (.basic (.string true) pointer)
    | .error => .ok (.basic .error pointer)
    | .array =>
      match elements with
      | [] => .error (.missingElementType .array)
      | element :: _ => do
        let element ← classify element
        return .array element (arrayLengthOf arrayLength fixedSize zeroTerminated) arrayForm pointer
    | .glist =>
      match elements with
      | [] => .error (.missingElementType .glist)
      | element :: _ => do
        let element ← classify element
        return .list element false pointer
    | .gslist =>
      match elements with
      | [] => .error (.missingElementType .gslist)
      | element :: _ => do
        let element ← classify element
        return .list element true pointer
    | .ghash =>
      match elements with
      | [] => .error (.missingElementType .ghash)
      | [key] => do
        let _ ← classify key
        .error (.missingElementType .ghash)
      | key :: value :: _ => do
        let key ← classify key
        let value ← classify value
        return .hash key value pointer
    | .interface => r.classifyNamed interface pointer

def byteSize (t : TypeRecord) : Except TypeFault Nat := do return (← r.classify t).size

def displayName (t : TypeRecord) : String :=
  match r.classify t with
  | .ok d => d.displayName
  | .error _ => t.interface.getD t.tag.nativeName

end Repository

end ForeignCall
