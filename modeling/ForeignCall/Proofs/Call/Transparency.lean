import ForeignCall.Proofs.Call.LinkValues
import ForeignCall.Proofs.Call.Retention
import ForeignCall.Proofs.Call.Roles
import ForeignCall.Proofs.Conversion.RoundTrip

/-!
What goes through a trampoline.

Native code that enters a script function with lowered values enters it with equal values, those of the
visible parameters in their order and no others, and what the script function gives back arrives at
native code as a slot that is lifted as an equal value. Neither depends on what native code lowered
or allocated in between, nor on what the script function does.
-/

set_option autoImplicit false

namespace ForeignCall

open ForeignCall.Action

/-- The slot was obtained by lowering the value, and the heap has what was stored for it then. -/
def Heap.Bears (h : Heap) (env : Environment) (d : Descriptor) (slot : Slot) (v : Value) : Prop :=
  ∃ (m t : Memory) (nullable : Bool), lower env d v nullable m = .ok slot t ∧
    t.heap.size ≤ h.size ∧
    ∀ x, m.heap.size ≤ x → x < t.heap.size → h.byteAt x = t.heap.byteAt x

/-- Native code passes a value of plain data for a parameter. An array that does not tell its length has
it in the slot of the linked parameter, as an integer that can hold it. -/
structure Plan.Passes (plan : Plan) (env : Environment) (h : Heap) (slots : List Slot) (p : Parameter)
    (position : Nat) (v : Value) : Prop where
  input : p.direction.isOut = false
  data : p.type.isData = true
  carries : p.type.Carries v
  bears : h.Bears env p.type (slots.getD position .null) v
  sized : (∀ length, p.role ≠ .array length) → p.type.isSelfSized = true
  counted : ∀ length, p.role = .array length → ∃ (q : Parameter) (format : IntFormat) (pointer : Bool),
    plan.parameters[length]? = some q ∧ q.type = .basic (.integer format) pointer ∧
      (slots.getD length .null).asInt format.width.bits format.signed = v.itemCount

variable {env : Environment} {d : Descriptor} {plan : Plan} {p : Parameter} {slot : Slot}
  {slots : List Slot} {v : Value} {vs : List Value} {m : Memory} {h : Heap} {position address : Nat}

/-! ### Arguments -/

/-- A slot that bears a value is lifted as an equal one. -/
theorem Heap.Bears.lifts (bears : h.Bears env d slot v) (data : d.isData = true)
    (carries : d.Carries v) :
    ∃ w, w.equals v = true ∧ ∀ given, d.Tells given v → ∀ k : Memory, k.heap = h →
      ∀ held copy, lift held d slot given copy k = .ok w k := by
  obtain ⟨m, t, nullable, ran, inside, same⟩ := bears
  obtain ⟨-, w, stores⟩ := (lower_roundTrips data carries m _ (Nat.le_refl _)).of_ok ran
  refine ⟨w, stores.equal, fun given tells k here held copy => ?_⟩
  subst here
  exact stores.reads given tells k held copy inside same

namespace Plan

/-- The length that goes with a slot suits the value in it. -/
theorem Passes.tells (passes : plan.Passes env h slots p position v) :
    p.type.Tells (passedLength plan slots p) v := by
  unfold passedLength
  split
  · rename_i length role
    obtain ⟨q, format, pointer, found, type, count⟩ := passes.counted length role
    rw [found, Option.map_some, type, lengthValue, count]
    have carries := passes.carries
    unfold Descriptor.Tells
    split
    · rename_i array
      rw [array] at carries
      obtain ⟨items, rfl, -⟩ := carries
      exact .inl rfl
    · trivial
  · rename_i other
    exact Descriptor.tells_none (passes.sized other) v

/-- What native code passes is lifted as values equal to those it lowered, one for each visible
parameter, and lifting changes nothing. -/
theorem liftArguments_eq {parameters : List (Parameter × Nat)}
    (passed : List.Forall₂ (fun e v => plan.Passes env m.heap slots e.1 e.2 v)
      (parameters.filter (·.1.isVisible)) vs) :
    ∃ ws, List.Forall₂ (fun w v => w.equals v = true) ws vs ∧
      ∀ held, liftArguments plan slots held parameters m = .ok ws m := by
  induction parameters generalizing vs with
  | nil =>
    cases passed
    exact ⟨[], .nil, fun _ => rfl⟩
  | cons first rest ih =>
    obtain ⟨p, position⟩ := first
    by_cases visible : p.isVisible = true
    · rw [List.filter_cons, if_pos visible] at passed
      obtain - | ⟨passes, others⟩ := passed
      obtain ⟨w, equal, lifts⟩ := passes.bears.lifts passes.data passes.carries
      obtain ⟨ws, equals, lifted⟩ := ih others
      refine ⟨w :: ws, .cons equal equals, fun held => ?_⟩
      rw [liftArguments, if_neg (by simp [visible]), if_neg (by simp [passes.input]),
        bind_of_ok (lifts _ passes.tells m rfl held _), bind_of_ok (lifted (w :: held))]
      rfl
    · rw [List.filter_cons, if_neg visible] at passed
      obtain ⟨ws, equals, lifted⟩ := ih passed
      refine ⟨ws, equals, fun held => ?_⟩
      rw [liftArguments, if_pos (by simpa using visible)]
      exact lifted held

/-- Lengths, user data and destroy notifiers are not visible. -/
theorem isVisible_of_linked {r : Repository} {c : CallableRecord} (derived : derive r c = .ok plan)
    (found : plan.parameters[position]? = some p)
    (hidden : (∃ q ∈ plan.parameters, q.LinksTo position) ∨
      ∃ a, c.arguments[position]? = some a ∧ a.Hides p.type position) : p.isVisible = false := by
  have skip : p.role = .skip := by
    rcases hidden with ⟨q, listed, links⟩ | ⟨a, given, hides⟩
    · exact (wired_of_derive derived).skip_of_linksTo listed links found
    · exact hidden_of_hides derived found given hides
  simp [Parameter.isVisible, skip]

end Plan

/-! ### Results -/

/-- The end of an invocation frees nothing. -/
theorem endInvocation_frees (frugal : m.trampolines.Frugal) (address : Nat) :
    (endInvocation address).Gives m (fun _ t => t.heap = m.heap) (fun _ _ => False) fun _ => False := by
  rw [endInvocation, gives_bind, gives_get, gives_bind, gives_modify]
  by_cases spent : m.trampolines.isSpent address = true
  · obtain ⟨old, found, once⟩ := Option.map_eq_some_iff.1 (TrampolineTable.isSpent_iff.1 spent)
    have counted : (m.trampolines.recordInvocation address).get? address =
        some { old with invocations := old.invocations + 1 } := by
      rw [TrampolineTable.recordInvocation, TrampolineTable.get?_update, if_pos rfl, found,
        Option.map_some]
    rw [if_pos spent, gives_bind, releaseTrampoline, gives_bind, gives_get]
    dsimp only
    rw [counted]
    dsimp only
    rw [gives_bind, gives_modify, frugal address old found once]
    rfl
  · rw [if_neg spent]
    rfl

/-- The result of an invocation is lowered to a slot that is lifted as an equal value. -/
theorem lowerResult_lifts (env : Environment) (address : Nat) (given : plan.skipReturn = false)
    (data : plan.returnType.isData = true) (sized : plan.returnType.isSelfSized = true)
    (carries : plan.returnType.Carries v) :
    (lowerResult env plan address v).Gives m
      (fun slot t => ∃ w, w.equals v = true ∧
        ∀ held copy, lift held plan.returnType slot none copy t = .ok w t)
      (fun _ _ => False) (Heap.Full (m.heap.size + plan.returnType.room v)) := by
  rw [lowerResult, if_neg (by simp [given]), gives_bind]
  refine (lower_roundTrips data carries m _ (Nat.le_refl _)).mono ?_ fun _ _ never => never
  rintro slot t ⟨-, w, stores⟩
  have lifts (k : Memory) (same : k.heap = t.heap) (held : List Value) (copy : Bool) :
      lift held plan.returnType slot none copy k = .ok w k :=
    stores.reads none (Descriptor.tells_none sized v) k held copy (by rw [same])
      fun _ _ _ => by rw [same]
  split
  · rw [gives_bind, gives_modify]
    exact ⟨w, stores.equal, lifts _ rfl⟩
  · exact ⟨w, stores.equal, lifts t rfl⟩

namespace Session

variable {σ : Type} {w : World σ} {s u : Session σ} {depth : Nat} {held ws : List Value}
  {t : Trampoline} {r : Value}

def recorded (s : Session σ) (e : Event) : Session σ :=
  { s with memory := { s.memory with journal := s.memory.journal.push e } }

/-- An invocation, from the entry of its script function with the arguments. -/
def enterScript (w : World σ) (depth : Nat) (held : List Value) (address : Nat) (t : Trampoline)
    (arguments : List Value) : SessionM σ Slot := do
  onMemory (Memory.record (.script t.function arguments))
  let result : Except CallError Value ←
    attempt (runScript w depth (arguments ++ held) (w.script t.function arguments))
  convert (endInvocation address)
  let v ← ofExcept result
  convert (lowerResult w.environment t.plan address v)

theorem callback_eq (registered : s.memory.trampolines.get? address = some t)
    (lifted : ∀ held, liftArguments t.plan slots held t.plan.parameters.zipIdx s.memory =
      .ok ws s.memory) :
    callback w depth held address slots s = enterScript w depth held address t ws s := by
  obtain ⟨n, -, rfl⟩ := TrampolineTable.exists_number registered
  have converted (around : List Value) :
      (convert (liftArguments t.plan slots around t.plan.parameters.zipIdx) : SessionM σ _) s =
        .ok ws s := by
    simp only [convert, onMemory, mapError, lifted]
  rw [callback, enterCallback, if_neg (TrampolineTable.ne_destroyNotifyAddress n)]
  have read : (get : SessionM σ (Session σ)) s = .ok s s := rfl
  have around : heldNow w held s = .ok (held ++ w.kept s.host) s := rfl
  rw [bind_of_ok read, registered]
  change callTrampoline w (runScript w depth) held _ t slots s = _
  rw [callTrampoline, bind_of_ok around, bind_of_ok (converted _)]
  rfl

/-- When the script function has returned, its result is lowered. -/
theorem gives_enterScript {ok : Slot → Session σ → Prop} {failed : CallError → Session σ → Prop}
    {halted : Halt → Prop} (frugal : s.memory.trampolines.Frugal)
    (ran : runScript w depth (ws ++ held) (w.script t.function ws)
      (s.recorded (.script t.function ws)) = .ok r u)
    (lowers : ∀ m : Memory, m.heap = u.memory.heap →
      (convert (lowerResult w.environment t.plan address r) : SessionM σ Slot).Gives
        { u with memory := m } ok failed halted) :
    (enterScript w depth held address t ws).Gives s ok failed halted := by
  have kept : u.memory.trampolines.Frugal :=
    ((runScript_spares w depth _ _ _).of_ok ran).frugal frugal
  have entered : (onMemory (Memory.record (.script t.function ws)) : SessionM σ Unit) s =
      .ok () (s.recorded (.script t.function ws)) := rfl
  have returned : (attempt (runScript w depth (ws ++ held) (w.script t.function ws)) :
      SessionM σ (Except CallError Value)) (s.recorded (.script t.function ws)) = .ok (.ok r) u :=
    attempt_of_ok ran
  rw [Gives, enterScript, bind_of_ok entered, bind_of_ok returned, ← Gives, gives_bind, convert,
    gives_onMemory, gives_mapError]
  refine ((endInvocation_frees kept address).mono (fun _ m same => ?_)
    fun _ _ never => never.elim).mono_halted fun _ never => never.elim
  exact lowers m same

/-- Native code that invokes a trampoline with lowered values of plain data enters its script function with
equal values, one for each visible parameter. When the script function returns, native code gets a slot
that is lifted as a value equal to its result, or null if the result is skipped. -/
theorem trampoline_transparent (reached : s.Reached w)
    (registered : s.memory.trampolines.get? address = some t)
    (passed : List.Forall₂ (fun e v => t.plan.Passes w.environment s.memory.heap slots e.1 e.2 v)
      (t.plan.parameters.zipIdx.filter (·.1.isVisible)) vs) :
    (∀ c, Plan.derive w.environment.repository c = .ok t.plan →
      ∀ i p, t.plan.parameters[i]? = some p →
        ((∃ q ∈ t.plan.parameters, q.LinksTo i) ∨
          ∃ a, c.arguments[i]? = some a ∧ a.Hides p.type i) → p.isVisible = false) ∧
    ∃ ws, List.Forall₂ (fun w v => w.equals v = true) ws vs ∧ ∀ depth held,
      callback w depth held address slots s = enterScript w depth held address t ws s ∧
      ∀ r u, runScript w depth (ws ++ held) (w.script t.function ws)
          (s.recorded (.script t.function ws)) = .ok r u →
        (t.plan.skipReturn = true → ∃ z, callback w depth held address slots s = .ok .null z) ∧
        (t.plan.skipReturn = false → t.plan.returnType.isData = true →
          t.plan.returnType.isSelfSized = true → t.plan.returnType.Carries r →
          (callback w depth held address slots).Gives s
            (fun slot z => ∃ v, v.equals r = true ∧ ∀ around copy,
              lift around t.plan.returnType slot none copy z.memory = .ok v z.memory)
            (fun _ _ => False) (Heap.Full (u.memory.heap.size + t.plan.returnType.room r))) := by
  have frugal := reached.frugal
  refine ⟨fun c derived i p found hidden => Plan.isVisible_of_linked derived found hidden, ?_⟩
  obtain ⟨ws, equal, lifted⟩ := Plan.liftArguments_eq passed
  refine ⟨ws, equal, fun depth held => ?_⟩
  have enters : callback w depth held address slots s = enterScript w depth held address t ws s :=
    callback_eq registered lifted
  refine ⟨enters, fun r u ran => ⟨fun skipped => ?_, fun given data sized carries => ?_⟩⟩
  · have gives : (enterScript w depth held address t ws).Gives s (fun slot _ => slot = .null)
        (fun _ _ => False) fun _ => False := by
      refine gives_enterScript frugal ran fun m _ => ?_
      rw [convert, gives_onMemory, gives_mapError, lowerResult, if_pos skipped]
      rfl
    obtain ⟨slot, z, answered, rfl⟩ := gives.exists_ok
    exact ⟨z, enters.trans answered⟩
  · rw [Gives, enters, ← Gives]
    refine gives_enterScript frugal ran fun m same => ?_
    rw [convert, gives_onMemory, gives_mapError, ← same]
    exact (lowerResult_lifts w.environment address given data sized carries).mono
      (fun _ _ lifts => lifts) fun _ _ never => never

/-- The function `f` invokes the function pointer that it is passed with a buffer of two numbers and their
count. It passes no user data. -/
def countingWorld : World Unit where
  environment :=
    let numbers : TypeRecord := .cArray { tag := .integer ⟨.w32, true⟩ }
    let run : CallableRecord :=
      { namespaceName := "T", name := "Run", returnType := .utf8
        arguments := [
          { name := "numbers", type := numbers.withLength 1 },
          { name := "count", type := { tag := .integer ⟨.w32, true⟩ } },
          { name := "data", type := .anyPointer, closure := some 2 }] }
    let types := Repository.initial.insertEntry
      { namespaceName := "T", name := "Run", kind := .callback, signature := some run }
    let callback : ArgumentRecord := { name := "run", type := .named "T.Run", scope := some .async }
    ⟨types.insertFunction { namespaceName := "T", name := "f", arguments := [callback] }, .pin⟩
  library _ := some fun slots =>
    Native.request (.allocBytes [7, 0, 0, 0, 9, 0, 0, 0] 4) fun buffer =>
      .callback (slots.headD .null) [.ofNat buffer, ⟨2⟩] .ret
  script _ _ := .ret (.string "done")
  kept _ := []

/-- While `f` runs its script function is entered with the array of the two numbers, and the text that it
returns is what native code gets, even though the trampoline is released before the text is lowered. -/
theorem trampoline_transparent_numbers :
    let numbers : Value := .array [.number (.ofInt 7), .number (.ofInt 9)]
    let slots : List Slot := [.ofNat 16, ⟨2⟩]
    let a := TrampolineTable.base
    ∃ (s : Session Unit) (t : Trampoline), s.Reached countingWorld ∧
      s.memory.trampolines.get? a = some t ∧ t.release = .afterFirstInvocation ∧
      ∃ v, v.equals numbers = true ∧
        callback countingWorld 0 [] a slots s = enterScript countingWorld 0 [] a t [v] s ∧
        (callback countingWorld 0 [] a slots).Gives s
          (fun slot z => ∃ v, v.equals (.string "done") = true ∧ ∀ around copy,
            lift around (.basic (.string false) true) slot none copy z.memory = .ok v z.memory)
          (fun _ _ => False) (Heap.Full 29) := by
  intro numbers slots a
  let plan : Plan :=
    ((countingWorld.environment.repository.resolve? "T.Run").bind (·.signature)).elim default fun c =>
      (Plan.derive countingWorld.environment.repository c).toOption.getD default
  let first : Parameter := plan.parameters[0]?.getD default
  let content (x : Nat) : UInt8 := if x = 16 then 7 else if x = 20 then 9 else 0
  have visible : plan.parameters.zipIdx.filter (·.1.isVisible) = [(first, 0)] := by decide +kernel
  have type : first.type = .array (.basic (.integer ⟨.w32, true⟩) false) (.parameter 1) .c true := by
    decide +kernel
  have role : first.role = .array 1 := by decide +kernel
  have carries : first.type.Carries numbers := by
    rw [type]
    refine ⟨_, rfl, rfl, ?_, by simp⟩
    have whole : ∀ i ∈ [(7 : Int), 9], (Number.ofInt i).toInt? = some i ∧
        (IntFormat.mk .w32 true).Represents i := by decide +kernel
    intro item listed
    rcases List.mem_pair.1 listed with rfl | rfl
    · exact ⟨_, 7, rfl, whole 7 (by simp)⟩
    · exact ⟨_, 9, rfl, whole 9 (by simp)⟩
  have seen : ((Watched.play countingWorld 1
      [.script [] (.call "T.f" none [.function ⟨0⟩] fun _ => .ret .undefined)]).seen (.start ())).any
        (fun m => (m.before.memory.trampolines.get? a).any
            (fun t => t.plan == plan && t.release == .afterFirstInvocation) &&
          m.before.memory.heap.size == 24 &&
          (List.range 24).all fun x => m.before.memory.heap.byteAt x == content x) = true := by
    decide +kernel
  obtain ⟨m, listed, facts⟩ := List.any_eq_true.1 seen
  simp only [Bool.and_eq_true, Option.any_eq_true, beq_iff_eq, List.all_eq_true, List.mem_range]
    at facts
  obtain ⟨⟨⟨t, registered, planned, once⟩, size⟩, bytes⟩ := facts
  have reached : m.before.Reached countingWorld := ⟨(), 1, _, m, listed, rfl⟩
  -- The buffer is what lowering the array first of all would have made.
  have bears : m.before.memory.heap.Bears countingWorld.environment first.type (.ofNat 16) numbers := by
    obtain ⟨slot, u, ran, same⟩ := Action.exists_ok_such
      (x := lower countingWorld.environment first.type numbers false) (s := Memory.empty)
      (fun slot u => slot == .ofNat 16 && u.heap.size == 24 &&
        (List.range 24).all fun x => u.heap.byteAt x == content x) (by decide +kernel)
    simp only [Bool.and_eq_true, beq_iff_eq, List.all_eq_true, List.mem_range] at same
    obtain ⟨⟨rfl, size'⟩, bytes'⟩ := same
    refine ⟨.empty, u, false, ran, by omega, fun x _ below => ?_⟩
    rw [bytes x (by omega), bytes' x (by omega)]
  have passes : t.plan.Passes countingWorld.environment m.before.memory.heap slots first 0 numbers := by
    refine ⟨by decide +kernel, by decide +kernel, carries, bears, fun other => ?_, ?_⟩
    · exact absurd role (other 1)
    · rintro length linked
      cases role.symm.trans linked
      rw [planned]
      exact ⟨plan.parameters[1]?.getD default, ⟨.w32, true⟩, false, by decide +kernel⟩
  have passed : List.Forall₂ (fun e v => t.plan.Passes countingWorld.environment
      m.before.memory.heap slots e.1 e.2 v) (t.plan.parameters.zipIdx.filter (·.1.isVisible))
      [numbers] := by
    rw [show t.plan.parameters.zipIdx.filter (·.1.isVisible) = [(first, 0)] by rw [planned, visible]]
    exact .cons passes .nil
  obtain ⟨-, ws, equal, answers⟩ := trampoline_transparent reached registered passed
  obtain - | ⟨same, others⟩ := equal
  cases others
  obtain ⟨enters, returns⟩ := answers 0 []
  have returned : t.plan.skipReturn = false ∧ t.plan.returnType = .basic (.string false) true := by
    rw [planned]
    decide +kernel
  have answer := (returns (.string "done") _ rfl).2 returned.1
  rw [returned.2] at answer
  have full : m.before.memory.heap.size + (Descriptor.basic (.string false) true).room (.string "done") =
      29 := by
    rw [size]
    decide +kernel
  refine ⟨m.before, t, reached, registered, once, _, same, enters, ?_⟩
  rw [← full]
  exact answer rfl rfl ⟨"done", rfl, by decide⟩

end Session

end ForeignCall
