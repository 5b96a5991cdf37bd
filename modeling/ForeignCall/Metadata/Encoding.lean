import ForeignCall.Json
import ForeignCall.Metadata.Record

/-!
Records as JSON.

A record is an object of its fields, or an array of them in order. Fields it does not know are
ignored; a field given twice is an error, and so is a missing field without a default. Reading takes
a `room`, how many arrays and objects may be open around what is read, since documents limit the
nesting of what they define.
-/

set_option autoImplicit false

namespace ForeignCall

namespace Encoding

def fields? (names : List String) : Json → Option (List (Option Json))
  | .array items =>
    if items.length ≤ names.length then
      some ((items.map some) ++ List.replicate (names.length - items.length) none)
    else none
  | .object members =>
    if members.any (fun (name, _) => name.isNone) then none
    else
      names.mapM fun name =>
        match members.filter (fun (n, _) => n == some name) with
        | [] => some none
        | [(_, value)] => some (some value)
        | _ => none
  | _ => none

def required {α : Type} (read : Json → Option α) (field : Option Json) : Option α := field.bind read

def defaulted {α : Type} (default : α) (read : Json → Option α) (field : Option Json) : Option α :=
  match field with
  | none => some default
  | some j => read j

def optional {α : Type} (read : Json → Option α) (field : Option Json) : Option (Option α) :=
  match field with
  | none | some .null => some none
  | some j => (read j).map some

def readBool : Json → Option Bool
  | .bool b => some b
  | _ => none

def readString : Json → Option String
  | .string s => s
  | _ => none

def readNat : Json → Option Nat
  | .integer i => if 0 ≤ i ∧ i < UInt64.size then some i.toNat else none
  | _ => none

def readList {α : Type} (read : Nat → Json → Option α) (room : Nat) : Json → Option (List α)
  | .array items =>
    match room with
    | 0 => none
    | room + 1 => items.mapM (read room)
  | _ => none

/-- One of a fixed list of words: the word itself, or an object with the word as its only member
and null as its value. -/
def readWord {α : Type} (ofWord? : String → Option α) (room : Nat) : Json → Option α
  | .string s => s.bind ofWord?
  | .object [(some s, .null)] => if room = 0 then none else ofWord? s
  | _ => none

def present {α : Type} (name : String) (value : Option α) (write : α → Json) :
    List (String × Json) :=
  match value with
  | some a => [(name, write a)]
  | none => []

def nonempty (name : String) (items : List Json) : List (String × Json) :=
  if items.isEmpty then [] else [(name, .array items)]

end Encoding

open Encoding

def IntFormat.all : List IntFormat :=
  [⟨.w8, true⟩, ⟨.w8, false⟩, ⟨.w16, true⟩, ⟨.w16, false⟩, ⟨.w32, true⟩, ⟨.w32, false⟩,
    ⟨.w64, true⟩, ⟨.w64, false⟩]

namespace Tag

def all : List Tag :=
  [.void, .boolean] ++ IntFormat.all.map .integer ++
    [.float, .double, .gtype, .utf8, .filename, .array, .interface, .glist, .gslist, .ghash,
      .error, .unichar]

def word : Tag → String
  | .void => "void"
  | .boolean => "boolean"
  | .integer format => (if format.signed then "int" else "uint") ++ toString format.width.bits
  | .float => "float"
  | .double => "double"
  | .gtype => "gtype"
  | .utf8 => "utf8"
  | .filename => "filename"
  | .array => "array"
  | .interface => "interface"
  | .glist => "glist"
  | .gslist => "gslist"
  | .ghash => "ghash"
  | .error => "error"
  | .unichar => "unichar"

def ofWord? (s : String) : Option Tag := all.find? (·.word == s)

end Tag

namespace Kind

def all : List Kind :=
  [.function, .callback, .struct, .boxed, .enum, .flags, .object, .interface, .constant, .union,
    .value, .signal, .vfunc, .property, .field, .arg, .type, .unresolved]

def ofWord? (s : String) : Option Kind := all.find? (·.word == s)

end Kind

namespace ArrayForm

def all : List ArrayForm := [.c, .array, .pointerArray, .byteArray]

def word : ArrayForm → String
  | .c => "c"
  | .array => "array"
  | .pointerArray => "ptr-array"
  | .byteArray => "byte-array"

def ofWord? (s : String) : Option ArrayForm := all.find? (·.word == s)

end ArrayForm

namespace Direction

def all : List Direction := [.input, .output, .inout]

def word : Direction → String
  | .input => "in"
  | .output => "out"
  | .inout => "inout"

/-- The last direction may also be written with a hyphen. -/
def ofWord? (s : String) : Option Direction :=
  if s = "in-out" then some .inout else all.find? (·.word == s)

end Direction

namespace Transfer

def all : List Transfer := [.nothing, .container, .everything]

def word : Transfer → String
  | .nothing => "nothing"
  | .container => "container"
  | .everything => "everything"

def ofWord? (s : String) : Option Transfer := all.find? (·.word == s)

end Transfer

namespace Scope

def all : List Scope := [.call, .async, .notified, .forever]

def word : Scope → String
  | .call => "call"
  | .async => "async"
  | .notified => "notified"
  | .forever => "forever"

def ofWord? (s : String) : Option Scope := all.find? (·.word == s)

end Scope

namespace TypeRecord

def fieldNames : List String :=
  ["tag", "pointer", "interface", "params", "array_length", "fixed_size", "zero_terminated",
    "array_type"]

def read : Nat → Json → Option TypeRecord
  | 0, _ => none
  | room + 1, j => do
    match ← fields? fieldNames j with
    | [tag, pointer, interface, elements, arrayLength, fixedSize, zeroTerminated, arrayForm] =>
      return {
        tag := ← required (readWord Tag.ofWord? room) tag
        pointer := ← defaulted false readBool pointer
        interface := ← optional Encoding.readString interface
        elements := ← defaulted []
          (fun
            | .array items =>
              match room with
              | 0 => none
              | room + 1 => items.mapM (fun item => read room item)
            | _ => none) elements
        arrayLength := ← optional readNat arrayLength
        fixedSize := ← optional readNat fixedSize
        zeroTerminated := ← defaulted false readBool zeroTerminated
        arrayForm := ← defaulted .c (readWord ArrayForm.ofWord? room) arrayForm }
    | _ => none

mutual

def toJson : TypeRecord → Json
  | ⟨tag, pointer, interface, elements, arrayLength, fixedSize, zeroTerminated, arrayForm⟩ =>
    .record (
      [("tag", .text tag.word), ("pointer", .bool pointer)]
      ++ present "interface" interface .text
      ++ nonempty "params" (toJsonList elements)
      ++ present "array_length" arrayLength .ofNat
      ++ present "fixed_size" fixedSize .ofNat
      ++ [("zero_terminated", .bool zeroTerminated), ("array_type", .text arrayForm.word)])

def toJsonList : List TypeRecord → List Json
  | [] => []
  | t :: rest => t.toJson :: toJsonList rest

end

def ofJson? (j : Json) : Option TypeRecord := read j.depth j

end TypeRecord

namespace ArgumentRecord

def fieldNames : List String :=
  ["name", "type", "direction", "transfer", "nullable", "caller_allocates", "closure", "destroy",
    "scope"]

def read (room : Nat) (j : Json) : Option ArgumentRecord :=
  match room with
  | 0 => none
  | room + 1 => do
    match ← fields? fieldNames j with
    | [name, type, direction, transfer, nullable, callerAllocates, closure, destroy, scope] =>
      return {
        name := ← required readString name
        type := ← required (TypeRecord.read room) type
        direction := ← defaulted .input (readWord Direction.ofWord? room) direction
        transfer := ← defaulted .nothing (readWord Transfer.ofWord? room) transfer
        nullable := ← defaulted false readBool nullable
        callerAllocates := ← defaulted false readBool callerAllocates
        closure := ← optional readNat closure
        destroy := ← optional readNat destroy
        scope := ← optional (readWord Scope.ofWord? room) scope }
    | _ => none

def toJson (a : ArgumentRecord) : Json :=
  .record (
    [("name", .text a.name), ("type", a.type.toJson), ("direction", .text a.direction.word),
      ("transfer", .text a.transfer.word), ("nullable", .bool a.nullable),
      ("caller_allocates", .bool a.callerAllocates)]
    ++ present "closure" a.closure .ofNat
    ++ present "destroy" a.destroy .ofNat
    ++ present "scope" a.scope (fun s => .text s.word))

def ofJson? (j : Json) : Option ArgumentRecord := read j.depth j

end ArgumentRecord

namespace CallableRecord

def fieldNames : List String :=
  ["namespace", "name", "container", "symbol", "args", "return_type", "return_transfer",
    "may_return_null", "skip_return", "is_method", "is_constructor", "throws"]

def read (room : Nat) (j : Json) : Option CallableRecord :=
  match room with
  | 0 => none
  | room + 1 => do
    match ← fields? fieldNames j with
    | [ns, name, container, symbol, arguments, returnType, returnTransfer, mayReturnNull,
        skipReturn, isMethod, isConstructor, throws] =>
      return {
        namespaceName := ← defaulted "" readString ns
        name := ← required readString name
        container := ← optional readString container
        symbol := ← optional readString symbol
        arguments := ← defaulted [] (readList ArgumentRecord.read room) arguments
        returnType := ← defaulted .void (TypeRecord.read room) returnType
        returnTransfer := ← defaulted .nothing (readWord Transfer.ofWord? room) returnTransfer
        mayReturnNull := ← defaulted false readBool mayReturnNull
        skipReturn := ← defaulted false readBool skipReturn
        isMethod := ← defaulted false readBool isMethod
        isConstructor := ← defaulted false readBool isConstructor
        throws := ← defaulted false readBool throws }
    | _ => none

def toJson (c : CallableRecord) : Json :=
  .record (
    [("namespace", .text c.namespaceName), ("name", .text c.name)]
    ++ present "container" c.container .text
    ++ present "symbol" c.symbol .text
    ++ [("args", .array (c.arguments.map (·.toJson))), ("return_type", c.returnType.toJson),
      ("return_transfer", .text c.returnTransfer.word),
      ("may_return_null", .bool c.mayReturnNull), ("skip_return", .bool c.skipReturn),
      ("is_method", .bool c.isMethod), ("is_constructor", .bool c.isConstructor),
      ("throws", .bool c.throws)])

def ofJson? (j : Json) : Option CallableRecord := read j.depth j

end CallableRecord

namespace EntryRecord

def fieldNames : List String :=
  ["namespace", "name", "kind", "size", "storage", "gtype", "parent", "methods", "signature"]

def read (room : Nat) (j : Json) : Option EntryRecord :=
  match room with
  | 0 => none
  | room + 1 => do
    match ← fields? fieldNames j with
    | [ns, name, kind, size, storage, typeNumber, parent, methods, signature] =>
      return {
        namespaceName := ← defaulted "" readString ns
        name := ← required readString name
        kind := ← required (readWord Kind.ofWord? room) kind
        size := ← optional readNat size
        storage := ← optional (readWord Tag.ofWord? room) storage
        typeNumber := ← optional readNat typeNumber
        parent := ← optional readString parent
        methods := ← defaulted [] (readList CallableRecord.read room) methods
        signature := ← optional (CallableRecord.read room) signature }
    | _ => none

def toJson (e : EntryRecord) : Json :=
  .record (
    [("namespace", .text e.namespaceName), ("name", .text e.name), ("kind", .text e.kind.word)]
    ++ present "size" e.size .ofNat
    ++ present "storage" e.storage (fun t => .text t.word)
    ++ present "gtype" e.typeNumber .ofNat
    ++ present "parent" e.parent .text
    ++ nonempty "methods" (e.methods.map (·.toJson))
    ++ present "signature" e.signature (·.toJson))

def ofJson? (j : Json) : Option EntryRecord := read j.depth j

end EntryRecord

end ForeignCall
