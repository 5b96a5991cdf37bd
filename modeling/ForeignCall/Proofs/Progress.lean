import ForeignCall.Call.Invoke
import ForeignCall.Proofs.Conversion.Copying
import ForeignCall.Proofs.Conversion.Tracking

/-!
What can become of the native state in the course of a run.

`Progress R` lists the steps that are ever taken in the native state: a relation that holds across
each of them and composes holds across whole conversions, calls and programs. Conversions never
touch the pending exception, so that for them a relation need only be `Steady`; lowering only
registers trampolines, and lifting leaves them alone. What a run does to the heap is left open here.
-/

set_option autoImplicit false

namespace ForeignCall

/-- Relations that hold across the steps that leave the trampolines alone. -/
structure Quiet (R : Memory → Memory → Prop) : Prop where
  refl : ∀ m, R m m
  trans : ∀ {m t u}, R m t → R t u → R m u
  heap : ∀ m h, R m { m with heap := h }
  wrappers : ∀ (m : Memory) (wrappers : WrapperTable), m.wrappers.Wraps wrappers →
    R m { m with wrappers := wrappers }

structure Registering (R : Memory → Memory → Prop) : Prop extends Quiet R where
  registered : ∀ m function plan release,
    R m { m with
      trampolines := (m.trampolines.register function plan release).2
      journal := m.journal.push
        (.registered (m.trampolines.register function plan release).1) }

/-- Relations that hold across every step that leaves the pending exception alone, but for a trampoline
retaining what it gave back. -/
structure Releasing (R : Memory → Memory → Prop) : Prop extends Registering R where
  released : ∀ m address,
    R m { m with
      trampolines := m.trampolines.remove address
      journal := m.journal.push (.released address) }
  counted : ∀ m address, R m { m with trampolines := m.trampolines.recordInvocation address }
  native : ∀ m symbol slots, R m { m with journal := m.journal.push (.native symbol slots) }
  script : ∀ m function arguments,
    R m { m with journal := m.journal.push (.script function arguments) }
  note : ∀ m n, R m { m with journal := m.journal.push (.note n) }

structure Steady (R : Memory → Memory → Prop) : Prop extends Releasing R where
  retained : ∀ m address slot, R m { m with trampolines := m.trampolines.retain address slot }

structure Progress (R : Memory → Memory → Prop) : Prop extends Steady R where
  pending : ∀ m pending, R m { m with pending := pending }

instance {R : Memory → Memory → Prop} : Coe (Registering R) (Quiet R) := ⟨Registering.toQuiet⟩

instance {R : Memory → Memory → Prop} : Coe (Releasing R) (Registering R) := ⟨Releasing.toRegistering⟩

instance {R : Memory → Memory → Prop} : Coe (Steady R) (Releasing R) := ⟨Steady.toReleasing⟩

instance {R : Memory → Memory → Prop} : Coe (Progress R) (Steady R) := ⟨Progress.toSteady⟩

/-- States around a native state. -/
class Surrounds (τ : Type) where
  memory : τ → Memory

instance : Surrounds Memory := ⟨id⟩

instance : Surrounds Scratch := ⟨Scratch.memory⟩

instance (σ : Type) : Surrounds (Session σ) := ⟨Session.memory⟩

theorem Quiet.composes {τ : Type} [Surrounds τ] {R : Memory → Memory → Prop} (p : Quiet R) :
    Action.Composes fun s t : τ => R (Surrounds.memory s) (Surrounds.memory t) where
  refl _ := p.refl _
  trans := p.trans

namespace Action

variable {ε ε' τ α β : Type} [Surrounds τ] {R : Memory → Memory → Prop} {x : Action ε τ α}

/-- However the action ends, `R` holds between the native state it began in and the one it
leaves. -/
def Within (R : Memory → Memory → Prop) (x : Action ε τ α) : Prop :=
  x.Across fun s t => R (Surrounds.memory s) (Surrounds.memory t)

theorem Within.attempt (within : x.Within R) : (attempt x : Action ε' τ (Except ε α)).Within R :=
  Across.attempt within

theorem Within.mapError {f : ε → ε'} (within : x.Within R) : (mapError f x).Within R :=
  Across.mapError within

theorem within_endless : (endless : Action ε τ α).Within R := across_endless

theorem within_modify {f : τ → τ} (step : ∀ s, R (Surrounds.memory s) (Surrounds.memory (f s))) :
    (modify f : Action ε τ PUnit).Within R := step

theorem within_record {e : Event} (step : ∀ m : Memory, R m { m with journal := m.journal.push e }) :
    (Memory.record e : MemoryM ε Unit).Within R := step

variable (p : Quiet R)

include p

theorem within_pure (a : α) : (pure a : Action ε τ α).Within R := across_pure p.composes a

theorem within_fail (e : ε) : (fail e : Action ε τ α).Within R := across_fail p.composes e

theorem within_ofExcept (r : Except ε α) : (ofExcept r : Action ε τ α).Within R :=
  across_ofExcept p.composes r

theorem within_get : (get : Action ε τ τ).Within R := across_get p.composes

theorem Within.bind {f : α → Action ε τ β} (first : x.Within R) (rest : ∀ a, (f a).Within R) :
    (x >>= f).Within R := Across.bind p.composes first rest

theorem within_onHeap (x : Action ε Heap α) : (Memory.onHeap x).Within R := by
  intro m
  rw [gives_onHeap]
  exact (gives_anyhow x m.heap).mono (fun _ h _ => p.heap m h) fun _ h _ => p.heap m h

theorem within_touch [OfHeapFault ε] (x : HeapM α) : (Memory.touch x : MemoryM ε α).Within R :=
  within_onHeap p (Heap.act x)

end Action

open ForeignCall.Action

section Conversions

variable {R : Memory → Memory → Prop}

section

variable (p : Quiet R)

include p

theorem within_freshWrapper {ε : Type} (address : Nat) (typeName : String) (adopts : Bool) :
    (Memory.freshWrapper address typeName adopts : MemoryM ε Wrapper).Within R :=
  fun m => p.wrappers m _ (m.wrappers.wraps_fresh address typeName adopts)

theorem Quiet.copies : Copies R where
  refl := p.refl
  trans := p.trans
  grows m h _ _ := p.heap m h
  wrappers := p.wrappers

theorem within_lift (held : List Value) (d : Descriptor) (slot : Slot) (length : Option Nat)
    (copy : Bool) : (lift held d slot length copy).Within R :=
  across_lift p.copies held d slot length copy

theorem within_liftArguments (plan : Plan) (slots : List Slot) (held : List Value)
    (parameters : List (Parameter × Nat)) :
    (liftArguments plan slots held parameters).Within R := by
  induction parameters generalizing held with
  | nil => exact within_pure p _
  | cons q rest ih =>
    rw [liftArguments]
    split
    · exact ih held
    · split
      · exact within_fail p _
      · refine (within_lift p held _ _ _ _).bind p fun v => ?_
        exact (ih (v :: held)).bind p fun _ => within_pure p _

end

section

variable (p : Registering R)

include p

theorem within_register {ε : Type} (function : FunctionId) (plan : Plan) (release : Release) :
    (Memory.register function plan release : MemoryM ε Nat).Within R := fun m =>
  (gives_register fun _ => p.registered m function plan release).partly

theorem within_lowerCallback (env : Environment) (d : Descriptor) (v : Value) (nullable : Bool)
    (release : Release) : (lowerCallback env d v nullable release).Within R := by
  unfold lowerCallback
  split
  · exact within_pure p _
  · split
    · split
      · exact within_fail p _
      · split
        · exact within_fail p _
        · exact (within_register p _ _ _).bind p fun _ => within_pure p _
    · exact within_fail p _

theorem tracks_registering : Tracks (fun _ => R) R where
  heap := p.heap
  trans := p.trans
  fail := p.heap
  lost := p.trans
  after h step := p.trans step (p.heap _ h)

theorem within_lower (env : Environment) (d : Descriptor) (v : Value) (nullable : Bool) :
    (lower env d v nullable).Within R :=
  lower_tracked (tracks_registering p)
    (fun name pointer _ v nullable release =>
      within_lowerCallback p env (.named .callback name pointer) v nullable release) v nullable

theorem within_lowerArray (env : Environment) (d : Descriptor) (v : Value) (nullable : Bool) :
    (lowerArray env d v nullable).Within R := by
  unfold lowerArray
  split
  · exact tracked_packArray (tracks_registering p) (fun item => within_lower p env _ item false)
      (fun _ _ => rfl) v nullable
  · exact within_fail p _

theorem within_lowerResult
    (retained : ∀ m address slot, R m { m with trampolines := m.trampolines.retain address slot })
    (env : Environment) (plan : Plan) (address : Nat) (v : Value) :
    (lowerResult env plan address v).Within R := by
  unfold lowerResult
  split
  · exact within_pure p _
  · refine (within_lower p env _ v _).bind p fun slot => ?_
    split
    · exact (within_modify fun m => retained m address slot).bind p fun _ => within_pure p _
    · exact within_pure p _

end

section

variable (p : Releasing R)

include p

theorem within_releaseTrampoline (address : Nat) : (releaseTrampoline address).Within R := by
  refine (within_get p).bind p fun m => ?_
  split
  · exact within_pure p _
  · refine (within_modify fun m => p.released m address).bind p fun _ => ?_
    exact (within_onHeap p _).bind p fun _ => within_pure p _

theorem within_endInvocation (address : Nat) : (endInvocation address).Within R := by
  refine (within_get p).bind p fun m => ?_
  refine (within_modify fun m => p.counted m address).bind p fun _ => ?_
  split
  · exact (within_releaseTrampoline p address).bind p fun _ => within_pure p _
  · exact within_pure p _

end

end Conversions

theorem within_takePending {ε : Type} {R : Memory → Memory → Prop} (p : Quiet R)
    (taken : ∀ m pending, R m { m with pending := pending }) :
    (Memory.takePending : MemoryM ε _).Within R := by
  refine (within_get p).bind p fun m => ?_
  exact (within_modify fun m => taken m none).bind p fun _ => within_pure p _

end ForeignCall
