import ForeignCall.Conversion.Release

/-!
Lifting: from native slots to script values.

An array is lifted with exactly the count it is given or carries. A struct is copied when native code
keeps the original, and an address that a held wrapper stands for always gives that wrapper. Values
lifted for a container count as held while its other elements are lifted.
-/

set_option autoImplicit false

namespace ForeignCall

def liftInstance (held : List Value) (d : Descriptor) (address : Nat) (copy : Bool) :
    ConversionM Value := do
  if address = 0 then return .null
  match (← get).wrappers.lookup? held address with
  | some w => return .object w
  | none =>
    match d with
    | .named (.structured size _) _ _ =>
      if copy || d.isInlineStruct then
        match size with
        | none => Action.fail (.unsupported s!"cannot copy {d.displayName} of unknown size")
        | some size =>
          let copied ← Memory.touch (Heap.copyBlock address size)
          return .object (← Memory.wrap held copied d.displayName true)
      else return .object (← Memory.wrap held address d.displayName true)
    -- Objects are shared and never copied; without a transferred reference the wrapper owns none.
    | _ => return .object (← Memory.wrap held address d.displayName (!copy))

def liftChar (code : Nat) : ConversionM Value :=
  if code.isValidChar then pure (.string (String.singleton (Char.ofNat code)))
  else Action.fail (.invalidChar code)

def liftCallback (address : Nat) : ConversionM Value := do
  if address = 0 then return .null
  match (← get).trampolines.get? address with
  | some trampoline => return .function trampoline.function
  | none => Action.fail (.unknownTrampoline address)

def liftPositions (liftAt : List Value → Nat → ConversionM Value) (held : List Value) :
    Nat → Nat → ConversionM (List Value)
  | 0, _ => pure []
  | count + 1, position => do
    let v ← liftAt held position
    let rest ← liftPositions liftAt (v :: held) count (position + 1)
    return v :: rest

def liftNodes (liftItem : List Value → Slot → ConversionM Value) (held : List Value) :
    Nat → Nat → ConversionM (List Value)
  | 0, _ => Action.endless
  | fuel + 1, node =>
    if node = 0 then pure []
    else do
      let item ← Memory.touch (Heap.load node 8)
      let v ← liftItem held item
      let next ← Memory.onHeap (nextNode node)
      let rest ← liftNodes liftItem (v :: held) fuel next
      return v :: rest

/-- Lifts `count` elements of a buffer. Inline structs live in the buffer itself and are copied
out. -/
def liftBuffer (liftItem : List Value → Slot → ConversionM Value) (held : List Value)
    (element : Descriptor) (base count : Nat) : ConversionM Value := do
  let items ← liftPositions (fun held position => do
    let address ← Action.ofExcept (elementAddress base position element.size)
    if element.isInlineStruct then liftInstance held element address true
    else liftItem held (← Memory.touch (Heap.load address element.size))) held count 0
  return .array items

/-- Lifts a slot. The length is for arrays that do not carry their own; with `copy`, structs are
duplicated because native code keeps the original. -/
def lift (held : List Value) (d : Descriptor) (slot : Slot) (length : Option Nat) (copy : Bool) :
    ConversionM Value :=
  match d with
  | .basic .void pointer =>
    pure (if !pointer then .undefined else if slot.isNull then .null else .number (.ofNat slot.toNat))
  | .basic .boolean _ => pure (.bool slot.toBool)
  | .basic (.integer format) _ | .named (.enumeration format _) _ _ =>
    pure (.number (.ofInt (slot.asInt format.width.bits format.signed)))
  | .basic .float _ => pure (.number (.ofBinary32 (slot.toNat % UInt32.size)))
  | .basic .double _ => pure (.number ⟨slot.bits⟩)
  | .basic .gtype _ => pure (.number (.ofNat slot.toNat))
  | .basic .unichar _ => liftChar (slot.toNat % UInt32.size)
  | .basic (.string _) _ =>
    if slot.isNull then pure .null
    else do return .string (← Memory.touch (Heap.readString slot.toNat))
  | .named (.structured size byValue) name pointer =>
    liftInstance held (.named (.structured size byValue) name pointer) slot.toNat copy
  | .named .object name pointer => liftInstance held (.named .object name pointer) slot.toNat copy
  | .named .callback _ _ => liftCallback slot.toNat
  | .array element mode form pointer =>
    if slot.isNull then pure .null
    else do
      let count ← Memory.onHeap (arrayLength (.array element mode form pointer) slot.toNat length)
      liftBuffer (fun held item => lift held element item none copy) held element slot.toNat count
  | .list element _ _ => do
    let items ←
      liftNodes (fun held item => lift held element item none copy) held chainBound slot.toNat
    return .array items
  | .basic .error pointer =>
    Action.fail (.unsupported
      s!"cannot convert {(Descriptor.basic .error pointer).displayName} to a script value")
  | .hash key value pointer =>
    Action.fail (.unsupported
      s!"cannot convert {(Descriptor.hash key value pointer).displayName} to a script value")

def liftArray (held : List Value) (d : Descriptor) (base count : Nat) (copy : Bool) :
    ConversionM Value :=
  match d with
  | .array element _ _ _ =>
    liftBuffer (fun held item => lift held element item none copy) held element base count
  | _ => Action.fail (.unsupported d.displayName)

end ForeignCall
