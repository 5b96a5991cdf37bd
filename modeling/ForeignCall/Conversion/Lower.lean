import ForeignCall.Conversion.Release

/-!
Lowering: from script values to native slots.

Strings, arrays, lists and inline structs are copied into blocks of their own, which are released by
the transfer later; the address behind a wrapper is passed as it is. When an element of a container
cannot be lowered, what was lowered for the container before it is released again.
-/

set_option autoImplicit false

namespace ForeignCall

structure Environment where
  repository : Repository
  policy : UnscopedPolicy

/-- Whether a wrapper's dynamic type is the named type of a descriptor or derives from it. -/
def isInstance (r : Repository) (d : Descriptor) (w : Wrapper) : Bool :=
  d.name?.any (r.isA w.typeName)

def isBoolean : Descriptor → Bool
  | .basic .boolean _ => true
  | _ => false

def lengthAllows (mode : ArrayLength) (count : Nat) : Bool :=
  match mode with
  | .fixed expected => count == expected
  | _ => true

def canConvert (r : Repository) (d : Descriptor) (v : Value) (nullable : Bool) : Bool :=
  if v.isNullish && !isBoolean d then nullable && d.acceptsNull
  else
    match d with
    | .basic .boolean _ => true
    | .basic (.integer _) _ | .basic .float _ | .basic .double _ | .basic .gtype _
    | .named (.enumeration ..) _ _ => v.number?.isSome
    | .basic .unichar _ =>
      match v with
      | .number _ => true
      | .string s => s.toList.length == 1
      | _ => false
    | .basic (.string _) _ => v.string?.isSome
    | .named (.structured ..) _ _ | .named .object _ _ => v.wrapper?.any (isInstance r d)
    | .named .callback _ _ =>
      match v with
      | .function _ => true
      | _ => false
    | .array element mode form _ =>
      match v with
      | .array items =>
        form == .c && lengthAllows mode items.length
          && items.all fun item => canConvert r element item false
      | _ => false
    | .list element _ _ =>
      match v with
      | .array items => items.all fun item => canConvert r element item false
      | _ => false
    | .basic .void pointer =>
      match v with
      | .object _ | .number _ => pointer
      | _ => false
    | .basic .error _ | .hash .. => false

def mismatch {α : Type} (d : Descriptor) (v : Value) : ConversionM α :=
  Action.fail (.typeMismatch d.displayName v.describe)

def expectNumber (d : Descriptor) (v : Value) : ConversionM Number :=
  match v.number? with
  | some n => pure n
  | none => mismatch d v

def expectInstance (r : Repository) (d : Descriptor) (v : Value) : ConversionM Wrapper :=
  match v with
  | .object w => if isInstance r d w then pure w else mismatch d v
  | _ => mismatch d v

def lowerInteger (d : Descriptor) (v : Value) (width : Nat) : ConversionM Slot := do
  let n ← expectNumber d v
  return .ofNat (n.truncate width)

/-- A character: its code as a number, or a string of exactly one character. -/
def lowerChar (d : Descriptor) (v : Value) : ConversionM Slot :=
  match v with
  | .number n => pure (.ofNat (n.truncate 32))
  | .string s =>
    match s.toList with
    | [c] => pure (.ofNat c.toNat)
    | _ => mismatch d v
  | _ => mismatch d v

def lowerInline (d : Descriptor) (size : Option Nat) (w : Wrapper) : ConversionM Slot :=
  match size with
  | none => Action.fail (.unsupported s!"{d.displayName} has no known size")
  | some size => do return .ofNat (← Memory.touch (Heap.copyBlock w.address size))

/-- Registers a script function as a native function pointer. The address is also the token by
which native code and the destroy notifier refer to it. -/
def lowerCallback (env : Environment) (d : Descriptor) (v : Value) (nullable : Bool)
    (release : Release) : ConversionM Slot :=
  if v.isNullish && nullable then pure .null
  else
    match d, v with
    | .named .callback name _, .function f =>
      match (env.repository.resolve? name).bind (·.signature) with
      | none => Action.fail (.unsupported s!"callback {name} has no signature")
      | some signature =>
        match Plan.derive env.repository signature with
        | .error fault => Action.fail (.signature fault)
        | .ok plan => do return .ofNat (← Memory.register f plan release)
    | _, _ => mismatch d v

/-- Releases the first elements of a buffer that is given up half way through packing, as far as
that goes. Inline structs hold nothing but their bytes. -/
def discardElements (element : Descriptor) (base count : Nat) : LayoutM Unit :=
  if element.isInlineStruct then pure ()
  else
    forPositions (fun i => do
      let loaded : Except ConversionFault Slot ←
        Action.attempt (Heap.act (Heap.load (base + i * element.size) element.size))
      match loaded with
      | .error _ => pure ()
      | .ok slot =>
        let _ : Except ConversionFault Unit ←
          Action.attempt (freeValue element slot .nothing .input none)) count 0

def packItems (element : Descriptor) (base : Nat) (put : Nat → Value → ConversionM Unit) :
    Nat → List Value → ConversionM Unit
  | _, [] => pure ()
  | position, item :: rest => do
    let stored : Except ConversionFault Unit ←
      Action.attempt (put (base + position * element.size) item)
    match stored with
    | .ok () => packItems element base put (position + 1) rest
    | .error fault =>
      Memory.onHeap (discardElements element base position)
      Memory.touch (Heap.free base)
      Action.fail fault

def putItem (r : Repository) (element : Descriptor) (lowerItem : Value → ConversionM Slot)
    (address : Nat) (item : Value) : ConversionM Unit :=
  if element.isInlineStruct then do
    let w ← expectInstance r element item
    let bytes ← Memory.touch (Heap.read w.address element.size)
    Memory.touch (Heap.write address bytes)
  else do
    let slot ← lowerItem item
    Memory.touch (Heap.store address element.size slot)

def ArrayForm.debugName : ArrayForm → String
  | .c => "C"
  | .array => "Array"
  | .pointerArray => "PtrArray"
  | .byteArray => "ByteArray"

/-- Packs a script array into a buffer: its address and its element count. A zero-terminated array
gets one more element of zero bytes. -/
def packArray (r : Repository) (d element : Descriptor) (mode : ArrayLength) (form : ArrayForm)
    (lowerItem : Value → ConversionM Slot) (v : Value) (nullable : Bool) :
    ConversionM (Slot × Nat) :=
  if v.isNullish && nullable then pure (.null, 0)
  else
    match v with
    | .array items =>
      if form ≠ .c then Action.fail (.unsupported s!"{form.debugName} arrays")
      else
        match mode, lengthAllows mode items.length with
        | .fixed expected, false => Action.fail (.fixedSizeMismatch expected items.length)
        | _, _ => do
          let places := items.length + (if mode = .zeroTerminated then 1 else 0)
          let base ← Memory.touch (Heap.alloc (places * element.size) element.align)
          packItems element base (putItem r element lowerItem) 0 items
          return (.ofNat base, items.length)
    | _ => mismatch d v

def prependNode (singlyLinked : Bool) (item : Slot) (head : Nat) : HeapM Nat := do
  let node ← Heap.alloc (nodeSize singlyLinked) 8
  Heap.store node 8 item
  Heap.storePointer (node + nextOffset) head
  if !singlyLinked && head != 0 then Heap.storePointer (head + previousOffset) node
  return node

/-- Links the items of a script array, given last first, in front of the chain at `head`. -/
def linkItems (d : Descriptor) (singlyLinked : Bool) (lowerItem : Value → ConversionM Slot) :
    Nat → List Value → ConversionM Nat
  | head, [] => pure head
  | head, item :: rest => do
    let lowered : Except ConversionFault Slot ← Action.attempt (lowerItem item)
    match lowered with
    | .ok slot =>
      let node ← Memory.touch (prependNode singlyLinked slot head)
      linkItems d singlyLinked lowerItem node rest
    | .error fault =>
      let _ : Except ConversionFault Unit ←
        Action.attempt (Memory.onHeap (freeValue d (.ofNat head) .nothing .input none))
      Action.fail fault

def buildList (d : Descriptor) (singlyLinked : Bool) (lowerItem : Value → ConversionM Slot)
    (v : Value) : ConversionM Slot :=
  match v with
  | .array items => do return .ofNat (← linkItems d singlyLinked lowerItem 0 items.reverse)
  | _ => mismatch d v

def lower (env : Environment) (d : Descriptor) (v : Value) (nullable : Bool) : ConversionM Slot :=
  if v.isNullish && !isBoolean d then
    if nullable && d.acceptsNull then pure .null else mismatch d v
  else
    match d with
    | .basic .boolean _ => pure (.ofBool v.isTruthy)
    | .basic (.integer format) pointer =>
      lowerInteger (.basic (.integer format) pointer) v format.width.bits
    | .basic .float pointer => do
      let n ← expectNumber (.basic .float pointer) v
      return .ofNat n.toBinary32
    | .basic .double pointer => do
      let n ← expectNumber (.basic .double pointer) v
      return ⟨n.bits⟩
    | .basic .gtype pointer => lowerInteger (.basic .gtype pointer) v 64
    | .named (.enumeration storage flags) name pointer =>
      lowerInteger (.named (.enumeration storage flags) name pointer) v storage.width.bits
    | .basic .unichar pointer => lowerChar (.basic .unichar pointer) v
    | .basic (.string filename) pointer =>
      match v with
      | .string s => do return .ofNat (← Memory.touch (Heap.duplicate s))
      | _ => mismatch (.basic (.string filename) pointer) v
    | .named (.structured size byValue) name pointer => do
      let d := .named (.structured size byValue) name pointer
      let w ← expectInstance env.repository d v
      if byValue && !pointer then lowerInline d size w else return .ofNat w.address
    | .named .object name pointer => do
      let w ← expectInstance env.repository (.named .object name pointer) v
      return .ofNat w.address
    | .named .callback name pointer =>
      lowerCallback env (.named .callback name pointer) v nullable
        (releaseFor none none env.policy)
    | .array element mode form pointer => do
      let (slot, _) ←
        packArray env.repository (.array element mode form pointer) element mode form
          (fun item => lower env element item false) v nullable
      return slot
    | .list element singlyLinked pointer =>
      buildList (.list element singlyLinked pointer) singlyLinked
        (fun item => lower env element item false) v
    | .basic .void pointer =>
      match pointer, v with
      | true, .object w => pure (.ofNat w.address)
      | true, .number n => pure (.ofNat (n.truncate 64))
      | true, _ => mismatch (.basic .void true) v
      | false, _ =>
        Action.fail (.unsupported s!"cannot pass {(Descriptor.basic .void false).displayName} from script")
    | .basic .error pointer =>
      Action.fail (.unsupported s!"cannot pass {(Descriptor.basic .error pointer).displayName} from script")
    | .hash key value pointer =>
      Action.fail (.unsupported s!"cannot pass {(Descriptor.hash key value pointer).displayName} from script")

def lowerArray (env : Environment) (d : Descriptor) (v : Value) (nullable : Bool) :
    ConversionM (Slot × Nat) :=
  match d with
  | .array element mode form _ =>
    packArray env.repository d element mode form (fun item => lower env element item false) v
      nullable
  | _ => mismatch d v

def lowerList (env : Environment) (d : Descriptor) (v : Value) : ConversionM Slot :=
  match d with
  | .list element singlyLinked _ =>
    buildList d singlyLinked (fun item => lower env element item false) v
  | _ => mismatch d v

end ForeignCall
