import ForeignCall.Action
import ForeignCall.Error
import ForeignCall.Trampoline

/-!
Native state: the heap, the trampolines, the wrappers the script was given, the pending exception,
and a journal of the boundary crossings.

Wrappers are remembered by address only as long as the script still holds them. Who holds a wrapper
is not part of this state; a look-up is told which values are held.
-/

set_option autoImplicit false

namespace ForeignCall

inductive Note where
  | slot (s : Slot)
  | text (s : String)
  | error (record : ErrorRecord)
  deriving DecidableEq, Repr

inductive Event where
  | native (symbol : String) (slots : List Slot)
  | script (function : FunctionId) (arguments : List Value)
  | registered (address : Nat)
  | released (address : Nat)
  | note (n : Note)
  deriving Repr

structure WrapperTable where
  next : Nat
  /-- The wrapper last made for an address, unless it was released since. -/
  cached : Std.TreeMap Nat Wrapper
  disowned : Std.TreeSet Nat
  addressed : ∀ (a : Nat) (w : Wrapper), cached[a]? = some w → w.address = a

namespace WrapperTable

def empty : WrapperTable := ⟨0, ∅, ∅, by simp⟩

def fresh (t : WrapperTable) (address : Nat) (typeName : String) (adopts : Bool) :
    Wrapper × WrapperTable :=
  (⟨t.next, address, typeName, adopts⟩, { t with next := t.next + 1 })

/-- The wrapper of an address, if one of the values held refers to it. -/
def lookup? (t : WrapperTable) (held : List Value) (address : Nat) : Option Wrapper :=
  t.cached[address]?.filter fun w => Value.anyHolds w.id held

/-- Wraps an address, with the wrapper it already has if that is still held. -/
def wrap (t : WrapperTable) (held : List Value) (address : Nat) (typeName : String)
    (adopts : Bool) : Wrapper × WrapperTable :=
  match t.lookup? held address with
  | some w => (w, t)
  | none =>
    let made := t.fresh address typeName adopts
    (made.1,
      { made.2 with
        cached := made.2.cached.insert address made.1
        addressed := by
          intro a w found
          rw [Std.TreeMap.getElem?_insert] at found
          split at found
          · rename_i same
            cases found
            exact Std.LawfulEqCmp.eq_of_compare same
          · exact t.addressed a w found })

def owns (t : WrapperTable) (w : Wrapper) : Bool := w.adopts && !t.disowned.contains w.id

/-- Forgets the wrapper of an address, whichever it is, and lets `w` give up what it owns. -/
def disown (t : WrapperTable) (w : Wrapper) : WrapperTable :=
  { t with
    cached := t.cached.erase w.address
    disowned := t.disowned.insert w.id
    addressed := by
      intro a w' found
      rw [Std.TreeMap.getElem?_erase] at found
      split at found
      · cases found
      · exact t.addressed a w' found }

end WrapperTable

structure Memory where
  heap : Heap
  trampolines : TrampolineTable
  wrappers : WrapperTable
  /-- The first exception of a callback since it was last taken. -/
  pending : Option CallError
  journal : Array Event

abbrev MemoryM (ε α : Type) := Action ε Memory α

namespace Memory

variable {ε α : Type}

def empty : Memory := ⟨.empty, .empty, .empty, none, #[]⟩

def onHeap (x : Action ε Heap α) : MemoryM ε α := fun
  | ⟨heap, trampolines, wrappers, pending, journal⟩ =>
    match x heap with
    | .ok a heap => .ok a ⟨heap, trampolines, wrappers, pending, journal⟩
    | .error e heap => .error e ⟨heap, trampolines, wrappers, pending, journal⟩

def touch [OfHeapFault ε] (x : HeapM α) : MemoryM ε α := onHeap (Heap.act x)

def record (e : Event) : MemoryM ε Unit := fun m =>
  .ok () { m with journal := m.journal.push e }

def register (function : FunctionId) (plan : Plan) (release : Release) : MemoryM ε Nat := fun m =>
  if TrampolineTable.addressOf m.trampolines.next < UInt64.size then
    let (address, trampolines) := m.trampolines.register function plan release
    .ok address
      { m with trampolines := trampolines, journal := m.journal.push (.registered address) }
  else .error (.halt .exhausted) m

def wrap (held : List Value) (address : Nat) (typeName : String) (adopts : Bool) :
    MemoryM ε Wrapper := fun m =>
  let (w, wrappers) := m.wrappers.wrap held address typeName adopts
  .ok w { m with wrappers := wrappers }

def freshWrapper (address : Nat) (typeName : String) (adopts : Bool) : MemoryM ε Wrapper := fun m =>
  let (w, wrappers) := m.wrappers.fresh address typeName adopts
  .ok w { m with wrappers := wrappers }

def releaseWrapper [OfHeapFault ε] (w : Wrapper) : MemoryM ε Unit := do
  let owned := (← get).wrappers.owns w
  modify fun m => { m with wrappers := m.wrappers.disown w }
  if owned then touch (Heap.free w.address)

/-- Records an exception of a callback; the first one stays. -/
def raise (e : CallError) : MemoryM ε Unit :=
  modify fun m => { m with pending := some (m.pending.getD e) }

def takePending : MemoryM ε (Option CallError) := do
  let pending := (← get).pending
  modify fun m => { m with pending := none }
  return pending

end Memory

end ForeignCall
