import ForeignCall.Call.Invoke
import ForeignCall.Proofs.Outcome

/-!
Runs with the moments at which the table of trampolines may change.

A `Watched` action is an action together with what is seen of each run of it: one moment for every
time that arguments are lowered, a function pointer is invoked, a script function starts or returns,
its result is lowered, a destroy notification comes in, or a call ends. A moment holds the state
before and after. The interpreter of programs is written once more with these actions, and what it
runs is what the interpreter runs; only the moments are new.
-/

set_option autoImplicit false

namespace ForeignCall

open ForeignCall.Action

/-- What happens at a moment. A call lists the trampolines that end with it, once its arguments are
lowered and when it ends. -/
inductive Mark where
  | lowered (own : List Nat)
  | ended (own : List Nat)
  | invoked (address : Nat)
  | entered (address : Nat)
  | returned (address : Nat)
  | answered (address : Nat)
  | destroyed (token : Nat)
  deriving DecidableEq, Repr

structure Moment (σ : Type) where
  mark : Mark
  before : Session σ
  after : Session σ

structure Watched (σ α : Type) where
  run : SessionM σ α
  seen : Session σ → List (Moment σ)

/-- What the outside does with a session: it runs a script function or a native one, which do
whatever they do, with calls and callbacks in each other. -/
inductive Activity (σ : Type) where
  | script (held : List Value) (s : Script σ)
  | native (held : List Value) (n : Native σ)

def Session.play {σ : Type} (w : World σ) (depth : Nat) : List (Activity σ) → SessionM σ Unit
  | [] => pure ()
  | .script held s :: rest => do
    let _ : Except CallError Value ← Action.attempt (runScript w depth held s)
    play w depth rest
  | .native held n :: rest => do
    let _ : Except CallError Slot ← Action.attempt (runNative w depth held n)
    play w depth rest

namespace Watched

variable {σ α β : Type}

/-- An action of which nothing is seen. -/
def silent (x : SessionM σ α) : Watched σ α := ⟨x, fun _ => []⟩

/-- Of two actions in a row both are seen; nothing of the second if the first does not get there. -/
instance : Monad (Watched σ) where
  pure a := silent (pure a)
  bind x f :=
    { run := x.run >>= fun a => (f a).run
      seen := fun s => x.seen s ++
        match x.run s with
        | .ok a t => (f a).seen t
        | .error _ _ => [] }

/-- An action that is seen as one moment, unless it is halted. -/
def marked (mark : Mark) (x : SessionM σ α) : Watched σ α where
  run := x
  seen s :=
    match x s with
    | .error (.halt _) _ => []
    | .ok _ t | .error (.error _) t => [⟨mark, s, t⟩]

def attempt (x : Watched σ α) : Watched σ (Except CallError α) := ⟨Action.attempt x.run, x.seen⟩

/-! ### Programs -/

def native (callback : Nat → List Slot → Watched σ Slot) : Native σ → Watched σ Slot
  | .ret slot => pure slot
  | .fault f => silent (Action.fail (.heap f))
  | .heap op next => do
    let answer : Except HeapFault op.Answer ←
      silent (Session.onMemory (Memory.onHeap (Action.attempt op.run)))
    native callback (next answer)
  | .callback function slots next => do
    let answer ← attempt (callback function.toNat slots)
    match answer with
    | .ok slot => native callback (next slot)
    | .error e =>
      silent (Session.onMemory (Memory.raise e))
      native callback (next .null)
  | .raise e next => do
    silent (Session.onMemory (Memory.raise e))
    native callback next
  | .note n next => do
    silent (Session.onMemory (Memory.record (.note n)))
    native callback next
  | .read next => do native callback (next (← silent get).host)
  | .write state next => do
    silent (modify fun s => { s with host := state })
    native callback next

def script (call : List Value → String → Option Value → List Value → Watched σ Value)
    (held : List Value) : Script σ → Watched σ Value
  | .ret v => pure v
  | .throw e => silent (Action.fail e)
  | .call name receiver arguments next => do
    let answer ← attempt (call (receiver.toList ++ arguments ++ held) name receiver arguments)
    script call (receiver.toList ++ arguments ++ answer.toOption.toList ++ held) (next answer)
  | .wrap address typeName adopts next => do
    let w ← silent (Session.onMemory (Memory.freshWrapper address typeName adopts))
    script call (.object w :: held) (next w)
  | .read next => do script call held (next (← silent get).host)
  | .write state next => do
    silent (modify fun s => { s with host := state })
    script call held next

def callTrampoline (w : World σ) (runScript : List Value → Script σ → Watched σ Value)
    (held : List Value) (address : Nat) (t : Trampoline) (slots : List Slot) : Watched σ Slot := do
  let around ← silent (Session.heldNow w held)
  let arguments ←
    silent (Session.convert (liftArguments t.plan slots around t.plan.parameters.zipIdx))
  marked (.entered address) (Session.onMemory (Memory.record (.script t.function arguments)))
  let result ← attempt (runScript (arguments ++ held) (w.script t.function arguments))
  marked (.returned address) (Session.convert (endInvocation address))
  let v ← silent (Action.ofExcept result)
  marked (.answered address) (Session.convert (lowerResult w.environment t.plan address v))

def enterCallback (w : World σ) (runScript : List Value → Script σ → Watched σ Value)
    (held : List Value) (address : Nat) (slots : List Slot) : Watched σ Slot := do
  marked (.invoked address) (pure ())
  if address = TrampolineTable.destroyNotifyAddress then
    let token := (slots.headD .null).toNat
    let _ ← marked (.destroyed token) (Session.convert (releaseTrampoline token))
    return .null
  match (← silent get).memory.trampolines.get? address with
  | none => silent (Action.fail (.conversion (.unknownTrampoline address)))
  | some t => callTrampoline w runScript held address t slots

/-! ### Calls -/

/-- Lowers the arguments of a call, as one moment. -/
def lowering (w : World σ) (plan : Plan) (address : Option Nat) (arguments : List Value) :
    Watched σ (Except CallError (List Slot) × Frame) :=
  let x := Session.within (.start plan.parameters.length)
    (FrameM.nativeSlots w.environment plan address arguments)
  { run := x
    seen := fun s =>
      match x s with
      | .ok lowered t => [⟨.lowered lowered.2.callScoped, s, t⟩]
      | .error _ _ => [] }

def enter (w : World σ) (callback : Nat → List Slot → Watched σ Slot) (symbol : String)
    (slots : List Slot) : Watched σ Slot := do
  silent (Session.onMemory (Memory.record (.native symbol slots)))
  match w.library symbol with
  | some function => native callback (function slots)
  | none => silent (Action.fail (.plan (.symbolNotFound symbol symbol)))

/-- The part of a call between the lowering of its arguments and its end. -/
def carry (w : World σ) (callback : Nat → List Slot → Watched σ Slot) (held : List Value)
    (symbol : String) (plan : Plan) (receiver : Option Value) (frame : Frame) :
    Except CallError (List Slot) → Watched σ (Except CallError Value × Frame)
  | .error e => pure (.error e, frame)
  | .ok slots => do
    let ret ← attempt (enter w callback symbol slots)
    match ret with
    | .error e => return (.error e, frame)
    | .ok ret =>
      let around ← silent (Session.heldNow w held)
      silent (Session.within frame (FrameM.settle around plan ret receiver))

def invoke (w : World σ) (callback : Nat → List Slot → Watched σ Slot) (held : List Value)
    (name : String) (receiver : Option Value) (arguments : List Value) : Watched σ Value := do
  let b ← silent (Session.bind w name)
  let plan ← silent (Session.prepare w name b)
  silent (Action.ofExcept (checkArguments w.environment.repository plan arguments))
  let address ← silent (Action.ofExcept (Session.receiverAddress plan receiver))
  let (slots, frame) ← lowering w plan address arguments
  let (outcome, left) ← carry w callback held b.callable.symbolName plan receiver frame slots
  let (released, _) ←
    marked (.ended frame.callScoped) (Session.within left (FrameM.releaseAll plan))
  let v ← silent (Action.ofExcept outcome)
  silent (Action.ofExcept released)
  return v

def callNested (w : World σ) :
    Nat → List Value → String → Option Value → List Value → Watched σ Value
  | 0, _, _, _, _ => silent Action.endless
  | depth + 1, held, name, receiver, arguments =>
    invoke w (enterCallback w (fun held s => script (callNested w depth) held s) held) held name
      receiver arguments

/-- Lets the outside take its activities. -/
def play (w : World σ) (depth : Nat) : List (Activity σ) → Watched σ Unit
  | [] => pure ()
  | .script held s :: rest => do
    let _ ← attempt (script (callNested w depth) held s)
    play w depth rest
  | .native held n :: rest => do
    let _ ← attempt (native (enterCallback w (script (callNested w depth)) held) n)
    play w depth rest

/-! ### What is run -/

variable {w : World σ} {callback : Nat → List Slot → Watched σ Slot} {held arguments : List Value}
  {address : Nat} {slots : List Slot} {name : String} {receiver : Option Value}

@[simp] theorem run_silent (x : SessionM σ α) : (silent x).run = x := rfl

@[simp] theorem run_bind (x : Watched σ α) (f : α → Watched σ β) :
    (x >>= f).run = x.run >>= fun a => (f a).run := rfl

theorem run_bind_of_ok {x : Watched σ α} {f : α → Watched σ β} {s t : Session σ} {a : α}
    (run : x.run s = .ok a t) : (x >>= f).run s = (f a).run t := bind_of_ok run

theorem seen_bind_of_ok {x : Watched σ α} {f : α → Watched σ β} {s t : Session σ} {a : α}
    (run : x.run s = .ok a t) : (x >>= f).seen s = x.seen s ++ (f a).seen t := by
  change x.seen s ++ _ = _
  rw [run]

theorem seen_bind_of_error {x : Watched σ α} {f : α → Watched σ β} {s t : Session σ}
    {e : Stop CallError} (run : x.run s = .error e t) : (x >>= f).seen s = x.seen s := by
  change x.seen s ++ _ = _
  rw [run]
  exact List.append_nil _

@[simp] theorem run_marked (mark : Mark) (x : SessionM σ α) : (marked mark x).run = x := rfl

@[simp] theorem run_attempt (x : Watched σ α) : (attempt x).run = Action.attempt x.run := rfl

theorem run_native (n : Native σ) :
    (native callback n).run = n.run fun address slots => (callback address slots).run := by
  induction n with
  | ret slot => rfl
  | fault f => rfl
  | heap op next ih => simp only [native, run_bind, run_silent, Native.run, ih]
  | callback function slots next ih =>
    simp only [native, run_bind, run_attempt, Native.run]
    congr 1
    funext answer
    cases answer with
    | ok slot => exact ih slot
    | error e => simp only [run_bind, run_silent, ih]
  | raise e next ih => simp only [native, run_bind, run_silent, Native.run, ih]
  | note n next ih => simp only [native, run_bind, run_silent, Native.run, ih]
  | read next ih => simp only [native, run_bind, run_silent, Native.run, ih]
  | write state next ih => simp only [native, run_bind, run_silent, Native.run, ih]

theorem run_script {call : List Value → String → Option Value → List Value → Watched σ Value}
    (s : Script σ) : (script call held s).run = s.run (fun held name receiver arguments =>
      (call held name receiver arguments).run) held := by
  induction s generalizing held with
  | ret v => rfl
  | throw e => rfl
  | call name receiver arguments next ih =>
    simp only [script, run_bind, run_attempt, Script.run, ih]
  | wrap address typeName adopts next ih =>
    simp only [script, run_bind, run_silent, Script.run, ih]
  | read next ih => simp only [script, run_bind, run_silent, Script.run, ih]
  | write state next ih => simp only [script, run_bind, run_silent, Script.run, ih]

theorem run_enterCallback {runScript : List Value → Script σ → Watched σ Value} :
    (enterCallback w runScript held address slots).run =
      ForeignCall.enterCallback w (fun held s => (runScript held s).run) held address slots := by
  simp only [enterCallback, run_bind, run_marked, pure_bind, ForeignCall.enterCallback]
  split
  · rfl
  · refine congrArg (get >>= ·) (funext fun s => ?_)
    dsimp only
    cases s.memory.trampolines.get? address <;> rfl

theorem run_enter {symbol : String} : (enter w callback symbol slots).run =
    Session.enter w (fun address slots => (callback address slots).run) symbol slots := by
  simp only [enter, run_bind, run_silent, Session.enter]
  cases w.library symbol with
  | some function => simp only [run_native]
  | none => rfl

theorem run_carry {symbol : String} {plan : Plan} {located : Option Nat} :
    ((lowering w plan located arguments).run >>= fun lowered =>
        (carry w callback held symbol plan receiver lowered.2 lowered.1).run) =
      Session.execute w (fun address slots => (callback address slots).run) held symbol plan
        receiver located arguments := by
  refine congrArg (Bind.bind _) (funext fun lowered => ?_)
  obtain ⟨slots, frame⟩ := lowered
  cases slots with
  | error e => rfl
  | ok slots =>
    simp only [carry, run_bind, run_attempt, run_enter]
    refine congrArg (Bind.bind _) (funext fun ret => ?_)
    cases ret <;> rfl

theorem run_invoke : (invoke w callback held name receiver arguments).run =
    Session.invoke w (fun address slots => (callback address slots).run) held name receiver
      arguments := by
  simp only [invoke, run_bind, run_silent, run_marked, Session.invoke, ← run_carry, bind_assoc]
  rfl

theorem run_callNested (depth : Nat) : (callNested w depth held name receiver arguments).run =
    Session.callNested w depth held name receiver arguments := by
  induction depth generalizing held name receiver arguments with
  | zero => rfl
  | succ depth ih =>
    simp only [callNested, run_invoke, run_enterCallback, run_script, ih, Session.callNested]

theorem run_play (depth : Nat) (activities : List (Activity σ)) :
    (play w depth activities).run = Session.play w depth activities := by
  induction activities with
  | nil => rfl
  | cons turn rest ih =>
    cases turn with
    | script held s =>
      simp only [play, run_bind, run_attempt, run_script, run_callNested, ih, Session.play,
        Session.runScript]
    | native held n =>
      simp only [play, run_bind, run_attempt, run_native, run_enterCallback, run_script,
        run_callNested, ih, Session.play, Session.runNative]
      rfl

end Watched

end ForeignCall
