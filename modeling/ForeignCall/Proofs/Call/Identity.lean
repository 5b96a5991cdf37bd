import ForeignCall.Call.Invoke
import ForeignCall.Proofs.Call.Frame
import ForeignCall.Proofs.Conversion.Wrapping

/-!
The identity of wrappers in a run of wrapping, lifting and releasing.

As long as a wrapper is held, its address gives that wrapper, however the steps follow each other. The
one exception is a release: when any wrapper of an address is released, the address forgets the wrapper
that it has, also if nothing was freed, and gives another one from then on.
-/

set_option autoImplicit false

namespace ForeignCall

open ForeignCall.Action

inductive WrapperStep where
  | wrap (address : Nat) (typeName : String) (adopts : Bool)
  | lift (held : List Value) (d : Descriptor) (slot : Slot) (length : Option Nat) (copy : Bool)
  | release (v : Value)

namespace WrapperStep

/-- The values that are held while the step is taken, apart from those that the host keeps. -/
def held : WrapperStep → List Value
  | .wrap .. => []
  | .lift held .. => held
  | .release v => [v]

/-- Whether the step is to give the wrapper of an address. -/
def Asks (address : Nat) : WrapperStep → Prop
  | .wrap asked _ _ => asked = address
  | .lift _ d slot _ _ => d.isInstance = true ∧ slot.toNat = address
  | .release _ => False

variable {σ : Type}

def run (w : World σ) : WrapperStep → SessionM σ Value
  | .wrap address typeName adopts => Session.wrapPointer w address typeName adopts
  | .lift held d slot length copy => do
    let around ← Session.heldNow w held
    Session.convert (ForeignCall.lift around d slot length copy)
  | .release v => do
    Session.releaseValue v
    return .undefined

end WrapperStep

/-- A step that was taken, with its outcome. -/
structure WrapperTurn (σ : Type) where
  step : WrapperStep
  before : Session σ
  outcome : Except CallError Value

namespace WrapperTurn

variable {σ : Type}

def Holds (w : World σ) (x : Wrapper) (now : WrapperTurn σ) : Prop :=
  Value.anyHolds x.id (now.step.held ++ w.kept now.before.host) = true

/-- The script releases a wrapper of the address, whether or not the wrapper owns it. -/
def Releases (address : Nat) (now : WrapperTurn σ) : Prop :=
  ∃ y : Wrapper, now.step = .release (.object y) ∧ y.address = address

end WrapperTurn

/-- The sessions that a run leads to, with its turns, the latest one first. In between, everything but
the wrappers that addresses have may change. -/
inductive WrapperRun {σ : Type} (w : World σ) : List (WrapperTurn σ) → Session σ → Prop
  | start (host : σ) : WrapperRun w [] (.start host)
  | turn {turns : List (WrapperTurn σ)} {s t : Session σ} {outcome : Except CallError Value}
      (earlier : WrapperRun w turns s) (step : WrapperStep)
      (ran : (attempt (step.run w) : SessionM σ (Except CallError Value)) s = .ok outcome t) :
      WrapperRun w (⟨step, s, outcome⟩ :: turns) t
  | other {turns : List (WrapperTurn σ)} {s t : Session σ} (earlier : WrapperRun w turns s)
      (cached : t.memory.wrappers.cached = s.memory.wrappers.cached)
      (next_le : s.memory.wrappers.next ≤ t.memory.wrappers.next) : WrapperRun w turns t

namespace WrapperTable

variable {t u : WrapperTable} {x : Wrapper}

/-- No address has the wrapper, and none will have it again. -/
structure Forgot (t : WrapperTable) (x : Wrapper) : Prop where
  below : x.id < t.next
  absent : ∀ (a : Nat) (y : Wrapper), t.cached[a]? = some y → y.id ≠ x.id

theorem Sound.congr (sound : t.Sound) (cached : u.cached = t.cached) (next_le : t.next ≤ u.next) :
    u.Sound where
  below a y found := Nat.lt_of_lt_of_le (sound.below a y (cached ▸ found)) next_le
  unique a b y z first second := sound.unique a b y z (cached ▸ first) (cached ▸ second)
  nonzero a y found := sound.nonzero a y (cached ▸ found)

theorem Forgot.congr (forgot : t.Forgot x) (cached : u.cached = t.cached) (next_le : t.next ≤ u.next) :
    u.Forgot x :=
  ⟨Nat.lt_of_lt_of_le forgot.below next_le, fun a y found => forgot.absent a y (cached ▸ found)⟩

/-- What a turn does to a table. -/
structure Turns {σ : Type} (w : World σ) (now : WrapperTurn σ) (u : WrapperTable) : Prop where
  next_le : now.before.memory.wrappers.next ≤ u.next
  sound : now.before.memory.wrappers.Sound → u.Sound
  fresh : ∀ (a : Nat) (y : Wrapper), u.cached[a]? = some y →
    now.before.memory.wrappers.cached[a]? = some y ∨ now.before.memory.wrappers.next ≤ y.id
  kept : ∀ x : Wrapper, now.before.memory.wrappers.cached[x.address]? = some x → now.Holds w x →
    ¬ now.Releases x.address → u.cached[x.address]? = some x
  given : ∀ v, now.outcome = .ok v → ∀ y ∈ v.wrappers, u.cached[y.address]? = some y
  gone : ∀ a : Nat, now.Releases a → u.cached[a]? = none

end WrapperTable

variable {σ : Type} {w : World σ} {s t : Session σ} {turns : List (WrapperTurn σ)} {x : Wrapper}

/-! ### One turn -/

theorem WrapperTable.turns_of_keeps {now : WrapperTurn σ} {u : WrapperTable}
    (keeps : now.before.memory.wrappers.Keeps (now.step.held ++ w.kept now.before.host) u)
    (unreleased : ∀ a, ¬ now.Releases a)
    (given : ∀ v, now.outcome = .ok v → ∀ y ∈ v.wrappers, u.cached[y.address]? = some y) :
    u.Turns w now where
  next_le := keeps.next_le
  sound := keeps.sound
  fresh := keeps.fresh
  kept x cached holds _ := keeps.kept x.address x cached holds
  given := given
  gone a releases := absurd releases (unreleased a)

theorem WrapperTable.cached_disown (t : WrapperTable) (y : Wrapper) (a : Nat) :
    (t.disown y).cached[a]? = if a = y.address then none else t.cached[a]? := by
  rw [disown, Std.TreeMap.getElem?_erase]
  by_cases here : a = y.address
  · rw [if_pos here, if_pos (here ▸ Std.ReflCmp.compare_self)]
  · rw [if_neg here, if_neg fun same => here (Std.LawfulEqCmp.eq_of_compare same).symm]

theorem WrapperTable.of_cached_disown {t : WrapperTable} {y z : Wrapper} {a : Nat}
    (found : (t.disown y).cached[a]? = some z) : t.cached[a]? = some z := by
  rw [cached_disown] at found
  split at found
  · cases found
  · exact found

theorem WrapperTable.turns_of_disown (y : Wrapper) (s : Session σ) {outcome : Except CallError Value}
    (plain : ∀ v, outcome = .ok v → v.wrappers = []) :
    (s.memory.wrappers.disown y).Turns w ⟨.release (.object y), s, outcome⟩ where
  next_le := Nat.le_refl _
  sound sound :=
    ⟨fun a z found => sound.below a z (of_cached_disown found),
      fun a b z z' first second =>
        sound.unique a b z z' (of_cached_disown first) (of_cached_disown second),
      fun a z found => sound.nonzero a z (of_cached_disown found)⟩
  fresh a z found := .inl (of_cached_disown found)
  kept x cached _ other := by
    rw [cached_disown, if_neg fun here => other ⟨y, rfl, here.symm⟩]
    exact cached
  given v gave := by
    rw [plain v gave]
    nofun
  gone a releases := by
    obtain ⟨y', same, here⟩ := releases
    cases same
    rw [cached_disown, if_pos here.symm]

theorem gives_releaseWrapper (y : Wrapper) (m : Memory) :
    (Memory.releaseWrapper y : MemoryM CallError Unit).Gives m
      (fun _ t => t.wrappers = m.wrappers.disown y) (fun _ t => t.wrappers = m.wrappers.disown y)
      fun _ => True := by
  rw [Memory.releaseWrapper, gives_bind, gives_get, gives_bind, gives_modify]
  split
  · rw [gives_touch]
    exact (gives_anyhow _ _).mono (fun _ _ _ => rfl) fun _ _ _ => rfl
  · exact rfl

theorem turns_run (step : WrapperStep) (s : Session σ) :
    (step.run w).Gives s (fun v t => t.memory.wrappers.Turns w ⟨step, s, .ok v⟩)
      (fun e t => t.memory.wrappers.Turns w ⟨step, s, .error e⟩) fun _ => True := by
  cases step with
  | wrap address typeName adopts =>
    have unreleased (outcome : Except CallError Value) (a : Nat) :
        ¬ WrapperTurn.Releases a ⟨.wrap address typeName adopts, s, outcome⟩ := by
      rintro ⟨y, ⟨⟩, -⟩
    rw [WrapperStep.run, Session.wrapPointer]
    split
    · refine WrapperTable.turns_of_keeps (.refl _ _) (unreleased _) fun v gave => ?_
      cases gave
      nofun
    · rename_i somewhere
      refine WrapperTable.turns_of_keeps
        (s.memory.wrappers.keeps_wrap _ somewhere typeName adopts) (unreleased _) fun v gave => ?_
      cases gave
      intro y listed
      cases List.mem_singleton.1 listed
      exact s.memory.wrappers.wrap_cached _ address typeName adopts
  | lift held d slot length copy =>
    have unreleased (outcome : Except CallError Value) (a : Nat) :
        ¬ WrapperTurn.Releases a ⟨.lift held d slot length copy, s, outcome⟩ := by
      rintro ⟨y, ⟨⟩, -⟩
    rw [WrapperStep.run, Session.heldNow, gives_bind, gives_bind, gives_get, gives_pure,
      Session.convert, Session.gives_onMemory, gives_mapError]
    refine (lifts_lift (held ++ w.kept s.host) d slot length copy s.memory).mono ?_ ?_
    · intro v m lifted
      refine WrapperTable.turns_of_keeps lifted.keeps (unreleased _) fun v gave => ?_
      cases gave
      exact lifted.cached
    · intro e m keeps
      exact WrapperTable.turns_of_keeps keeps (unreleased _) nofun
  | release v =>
    rw [WrapperStep.run, gives_bind]
    have plain (e : CallError) : ∀ v, .error e = (.ok v : Except CallError Value) → v.wrappers = [] :=
      nofun
    have none : ∀ v, .ok .undefined = (.ok v : Except CallError Value) → v.wrappers = [] := by
      rintro v ⟨⟩
      rfl
    cases v with
    | object y =>
      rw [Session.releaseValue, Session.gives_onMemory]
      refine (gives_releaseWrapper y s.memory).mono ?_ ?_
      · rintro _ m disowned
        rw [gives_pure]
        dsimp only
        rw [disowned]
        exact WrapperTable.turns_of_disown y s none
      · rintro e m disowned
        dsimp only
        rw [disowned]
        exact WrapperTable.turns_of_disown y s (plain e)
    | _ =>
      refine WrapperTable.turns_of_keeps (.refl _ _) ?_ fun v gave => ?_
      · rintro a ⟨y, ⟨⟩, -⟩
      · rw [none v gave]
        nofun

/-- A step that asks for an address with a wrapper that is held gives that wrapper and does nothing
else. -/
theorem run_of_knows {step : WrapperStep}
    (knows : s.memory.wrappers.Knows (step.held ++ w.kept s.host) x) (somewhere : x.address ≠ 0)
    (asks : step.Asks x.address) : step.run w s = .ok (.object x) s := by
  cases step with
  | wrap address typeName adopts =>
    cases asks
    have wrapped : Session.onMemory (ε := CallError)
        (Memory.wrap ([] ++ w.kept s.host) x.address typeName adopts) s = .ok x s := by
      have same := WrapperTable.wrap_of_knows knows typeName adopts
      rw [WrapperStep.held] at same
      rw [Session.onMemory, Memory.wrap]
      dsimp only
      rw [same]
    have kept : Session.heldNow w [] s = .ok ([] ++ w.kept s.host) s := rfl
    rw [WrapperStep.run, Session.wrapPointer, if_neg somewhere, bind_of_ok kept, bind_of_ok wrapped]
    rfl
  | lift held d slot length copy =>
    obtain ⟨isInstance, here⟩ := asks
    have kept : Session.heldNow w held s = .ok (held ++ w.kept s.host) s := rfl
    have lifted : lift (held ++ w.kept s.host) d slot length copy s.memory =
        .ok (.object x) s.memory := by
      have instanced : lift (held ++ w.kept s.host) d slot length copy =
          liftInstance (held ++ w.kept s.host) d slot.toNat copy := by
        cases d with
        | named type name pointer => cases type <;> first | rfl | cases isInstance
        | _ => cases isInstance
      have found : s.memory.wrappers.lookup? (held ++ w.kept s.host) x.address = some x :=
        WrapperTable.lookup?_eq knows
      have state : (get : ConversionM Memory) s.memory = .ok s.memory s.memory := rfl
      rw [instanced, here]
      unfold liftInstance
      rw [if_neg somewhere, bind_of_ok state, found]
      rfl
    rw [WrapperStep.run, bind_of_ok kept]
    simp only [Session.convert, Session.onMemory, mapError, lifted]
  | release v => exact asks.elim

/-! ### Runs -/

/-- What was in the table with the identity of a wrapper is out of it: a turn adds no such wrapper. -/
theorem WrapperTable.Turns.forgot {now : WrapperTurn σ} {u : WrapperTable} (turned : u.Turns w now)
    (below : x.id < now.before.memory.wrappers.next)
    (absent : ∀ (a : Nat) (y : Wrapper), u.cached[a]? = some y →
      now.before.memory.wrappers.cached[a]? = some y → y.id ≠ x.id) : u.Forgot x where
  below := Nat.lt_of_lt_of_le below turned.next_le
  absent a y found := by
    rcases turned.fresh a y found with old | fresh
    · exact absent a y found old
    · exact Nat.ne_of_gt (Nat.lt_of_lt_of_le below fresh)

theorem turns_of_ran {step : WrapperStep} {outcome : Except CallError Value}
    (ran : (attempt (step.run w) : SessionM σ (Except CallError Value)) s = .ok outcome t) :
    t.memory.wrappers.Turns w ⟨step, s, outcome⟩ := by
  rw [attempt] at ran
  split at ran
  · rename_i result
    cases ran
    exact (turns_run step s).of_ok result
  · rename_i result
    cases ran
    exact (turns_run step s).of_error result
  · cases ran

theorem WrapperRun.sound (run : WrapperRun w turns s) : s.memory.wrappers.Sound := by
  induction run with
  | start host => exact WrapperTable.sound_empty
  | turn earlier step ran ih => exact (turns_of_ran ran).sound ih
  | other earlier cached next_le ih => exact ih.congr cached next_le

/-- While a wrapper is held, its address has it until some wrapper of the address is released. After
that no address has it. -/
theorem WrapperRun.cached {later earlier : List (WrapperTurn σ)} {now : WrapperTurn σ} {v : Value}
    (run : WrapperRun w turns s) (split : turns = later ++ now :: earlier)
    (gave : now.outcome = .ok v) (inside : x ∈ v.wrappers) (holds : ∀ t ∈ later, t.Holds w x) :
    (∀ t ∈ later, ¬ t.Releases x.address) ∧ s.memory.wrappers.cached[x.address]? = some x ∨
      (∃ t ∈ later, t.Releases x.address) ∧ s.memory.wrappers.Forgot x := by
  induction run generalizing later with
  | start host => cases later <;> cases split
  | @turn turns s t outcome before step ran ih =>
    have turned := turns_of_ran ran
    cases later with
    | nil =>
      cases split
      exact .inl ⟨fun _ listed => (List.not_mem_nil listed).elim, turned.given v gave x inside⟩
    | cons last later =>
      obtain ⟨rfl, rest⟩ := List.cons.inj split
      obtain ⟨held, holds⟩ := List.forall_mem_cons.1 holds
      rcases ih rest holds with ⟨unreleased, cached⟩ | ⟨released, forgot⟩
      · by_cases releases : WrapperTurn.Releases x.address ⟨step, s, outcome⟩
        · have below := before.sound.below _ x cached
          refine .inr ⟨⟨_, List.mem_cons_self, releases⟩, turned.forgot below ?_⟩
          intro a y found old same
          cases before.sound.unique a _ y x old cached same
          cases (turned.gone _ releases).symm.trans found
        · exact .inl ⟨List.forall_mem_cons.2 ⟨releases, unreleased⟩,
            turned.kept x cached held releases⟩
      · obtain ⟨t', listed, releases⟩ := released
        exact .inr ⟨⟨t', List.mem_cons_of_mem _ listed, releases⟩,
          turned.forgot forgot.below fun a y _ old => forgot.absent a y old⟩
  | other before cached next_le ih =>
    rcases ih split holds with ⟨unreleased, found⟩ | ⟨released, forgot⟩
    · exact .inl ⟨unreleased, cached ▸ found⟩
    · exact .inr ⟨released, forgot.congr cached next_le⟩

/-- A wrapper that a step gave, and that is held ever since, is what every later step gives for its
address, wherever the address stands in what is lifted, if no wrapper of the address was released in
between. If one was, no step gives it again. -/
theorem Session.wrapper_identity {later earlier : List (WrapperTurn σ)} {now : WrapperTurn σ}
    {v : Value} (run : WrapperRun w (later ++ now :: earlier) s) (gave : now.outcome = .ok v)
    (inside : x ∈ v.wrappers) (holds : ∀ t ∈ later, t.Holds w x) :
    ((∀ t ∈ later, ¬ t.Releases x.address) → ∀ step : WrapperStep,
      Value.anyHolds x.id (step.held ++ w.kept s.host) = true →
        (step.Asks x.address → step.run w s = .ok (.object x) s) ∧
        (∀ v t, step.run w s = .ok v t →
          (∀ y ∈ v.wrappers, y.address = x.address → y = x) ∧
          ∀ held d slot length copy, step = .lift held d slot length copy →
            ∀ u, d.Places t.memory.heap x.address u slot v → u = .object x)) ∧
    ((∃ t ∈ later, t.Releases x.address) → ∀ (step : WrapperStep) (v : Value) (t : Session σ),
      step.run w s = .ok v t → ∀ y ∈ v.wrappers, y.id ≠ x.id) := by
  have sound := run.sound
  refine ⟨fun unreleased step held => ?_, fun released step v t ran y listed => ?_⟩
  · rcases run.cached rfl gave inside holds with ⟨-, cached⟩ | ⟨⟨t, listed, releases⟩, -⟩
    · have somewhere := sound.nonzero _ x cached
      refine ⟨run_of_knows ⟨cached, held⟩ somewhere, fun v t ran => ?_⟩
      have turned := (turns_run step s).of_ok ran
      refine ⟨fun y listed here => ?_, ?_⟩
      · have given := turned.given v rfl y listed
        have unreleased : ¬ WrapperTurn.Releases x.address ⟨step, s, .ok v⟩ := by
          intro releases
          cases (turned.gone _ releases).symm.trans (here ▸ given)
        have kept := turned.kept x cached held unreleased
        rw [here, kept] at given
        exact (Option.some.inj given).symm
      · rintro around d slot length copy rfl u places
        have lifted : (WrapperStep.run w (.lift around d slot length copy)).Gives s
            (fun v t => ∀ u, d.Places t.memory.heap x.address u slot v → u = .object x)
            (fun _ _ => True) fun _ => True := by
          rw [WrapperStep.run, Session.heldNow, gives_bind, gives_bind, gives_get, gives_pure,
            Session.convert, Session.gives_onMemory, gives_mapError]
          refine (lifts_lift _ d slot length copy s.memory).mono (fun v m lifts => ?_)
            fun _ _ _ => trivial
          exact lifts.right m.heap x (.refl _) ⟨cached, held⟩ somewhere
        exact lifted.of_ok ran u places
    · exact absurd releases (unreleased t listed)
  · rcases run.cached rfl gave inside holds with ⟨unreleased, -⟩ | ⟨-, forgot⟩
    · obtain ⟨t', listed', releases⟩ := released
      exact absurd releases (unreleased t' listed')
    · have turned := (turns_run step s).of_ok ran
      have left := turned.forgot forgot.below fun a z _ old => forgot.absent a z old
      exact left.absent _ y (turned.given v rfl y listed)

/-- A host that keeps a list of values and does nothing else. -/
def keepingWorld : World (List Value) where
  environment := ⟨.initial, .pin⟩
  library _ := none
  script _ _ := .ret .undefined
  kept := id

/-- A session with a block of eight bytes at address 16, and values that the host keeps. -/
def keepingSession (kept : List Value) (wrappers : WrapperTable) : Session (List Value) :=
  ⟨⟨(Heap.alloc 8 8).last .empty, .empty, wrappers, none, #[]⟩, ∅, kept⟩

/-- A wrapper of the block that does not own it. -/
def borrower : Wrapper := ⟨0, 16, "T.O", false⟩

def borrowed : WrapperTable := (WrapperTable.empty.wrap [] 16 "T.O" false).2

def borrowing : WrapperTurn (List Value) :=
  ⟨.wrap 16 "T.O" false, keepingSession [] .empty, .ok (.object borrower)⟩

/-- The block is wrapped, and then the host keeps the wrapper. -/
theorem borrows : WrapperRun keepingWorld [borrowing] (keepingSession [.object borrower] borrowed) := by
  have begun : WrapperRun keepingWorld [] (keepingSession [] .empty) :=
    .other (.start []) rfl (Nat.le_refl _)
  have ran : (attempt (borrowing.step.run keepingWorld) : SessionM _ (Except CallError Value))
      (keepingSession [] .empty) = .ok borrowing.outcome (keepingSession [] borrowed) := rfl
  exact .other (.turn begun borrowing.step ran) rfl (Nat.le_refl _)

/-- The wrapper is what its address gives, by whatever type it is lifted or wrapped. -/
theorem Session.wrapper_identity_borrowed :
    let s := keepingSession [.object borrower] borrowed
    let lifts : WrapperTurn (List Value) :=
      ⟨.lift [] (.named .object "T.P" true) (.ofNat 16) none true, s, .ok (.object borrower)⟩
    WrapperRun keepingWorld [lifts, borrowing] s ∧
      (WrapperStep.wrap 16 "T.Q" true).run keepingWorld s = .ok (.object borrower) s := by
  intro s lifts
  have ran : (attempt (lifts.step.run keepingWorld) : SessionM _ (Except CallError Value)) s =
      .ok lifts.outcome s := rfl
  have run : WrapperRun keepingWorld ([lifts] ++ borrowing :: []) s := .turn borrows lifts.step ran
  have held : ∀ t ∈ [lifts], t.Holds keepingWorld borrower := by
    rw [List.forall_mem_singleton]
    exact rfl
  have unreleased : ∀ t ∈ [lifts], ¬ t.Releases borrower.address := by
    rw [List.forall_mem_singleton]
    rintro ⟨y, ⟨⟩, -⟩
  have identity := Session.wrapper_identity run rfl (List.mem_singleton_self borrower) held
  exact ⟨run, (identity.1 unreleased (.wrap 16 "T.Q" true) rfl).1 rfl⟩

/-- Releasing a wrapper that owns nothing frees nothing, but its address forgets it: the next lift makes
a second wrapper of the same block while the first one is still held. -/
theorem Session.wrapper_forgotten :
    let s := keepingSession [.object borrower] borrowed
    let t := keepingSession [.object borrower] (borrowed.disown borrower)
    let releases : WrapperTurn (List Value) := ⟨.release (.object borrower), s, .ok .undefined⟩
    WrapperRun keepingWorld [releases, borrowing] t ∧ releases.Holds keepingWorld borrower ∧
      Value.anyHolds borrower.id (keepingWorld.kept t.host) = true ∧
      s.memory.heap.isLive borrower.address = true ∧ t.memory.heap = s.memory.heap ∧
      ∃ u, (WrapperStep.lift [] (.named .object "T.O" true) (.ofNat 16) none false).run
        keepingWorld t = .ok (.object ⟨1, 16, "T.O", true⟩) u := by
  intro s t releases
  have ran : (attempt (releases.step.run keepingWorld) : SessionM _ (Except CallError Value)) s =
      .ok releases.outcome t := rfl
  exact ⟨.turn borrows releases.step ran, rfl, rfl, by decide +kernel, rfl, _, rfl⟩

end ForeignCall
