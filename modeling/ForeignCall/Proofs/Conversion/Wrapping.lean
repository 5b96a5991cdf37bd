import ForeignCall.Proofs.Conversion.Copying
import ForeignCall.Proofs.Ownership.References

/-!
What lifting does to the table of wrappers.

A wrapper that is held stays in the table, whatever is lifted, and all that are new to it have identities
of their own. So an address with a wrapper that is held gives that wrapper, at every place of a value
where the address of a struct or an object stood in native memory.
-/

set_option autoImplicit false

namespace ForeignCall

open ForeignCall.Action

namespace Value

mutual

/-- The wrappers in a value, those in its items included. -/
def wrappers : Value → List Wrapper
  | .object w => [w]
  | .array items => wrappersOf items
  | _ => []

def wrappersOf : List Value → List Wrapper
  | [] => []
  | v :: rest => v.wrappers ++ wrappersOf rest

end

mutual

theorem holds_iff (id : Nat) : ∀ v : Value, v.holds id = true ↔ ∃ y ∈ v.wrappers, y.id = id
  | .object w => by simp [holds, wrappers]
  | .array items => by rw [holds, wrappers, anyHolds_iff id items]
  | .undefined | .null | .bool _ | .number _ | .string _ | .function _ => by simp [holds, wrappers]

theorem anyHolds_iff (id : Nat) :
    ∀ values : List Value, anyHolds id values = true ↔ ∃ y ∈ wrappersOf values, y.id = id
  | [] => by simp [anyHolds, wrappersOf]
  | v :: rest => by
    rw [anyHolds, Bool.or_eq_true, holds_iff id v, anyHolds_iff id rest, wrappersOf]
    simp only [List.mem_append, or_and_right, exists_or]

end

theorem anyHolds_cons_of_mem {y : Wrapper} {v : Value} (inside : y ∈ v.wrappers)
    (held : List Value) : anyHolds y.id (v :: held) = true := by
  rw [anyHolds, (holds_iff y.id v).2 ⟨y, inside, rfl⟩, Bool.true_or]

theorem anyHolds_cons {id : Nat} {held : List Value} (holds : anyHolds id held = true) (v : Value) :
    anyHolds id (v :: held) = true := by
  rw [anyHolds, holds, Bool.or_true]

end Value

/-! ### The table -/

namespace WrapperTable

/-- No two addresses have wrappers with one identity, and no wrapper is one of nothing. -/
structure Sound (t : WrapperTable) : Prop where
  below : ∀ (a : Nat) (y : Wrapper), t.cached[a]? = some y → y.id < t.next
  unique : ∀ (a b : Nat) (y z : Wrapper), t.cached[a]? = some y → t.cached[b]? = some z →
    y.id = z.id → a = b
  nonzero : ∀ (a : Nat) (y : Wrapper), t.cached[a]? = some y → a ≠ 0

/-- The wrapper is the one that its address has. -/
structure Knows (t : WrapperTable) (held : List Value) (x : Wrapper) : Prop where
  cached : t.cached[x.address]? = some x
  held : Value.anyHolds x.id held = true

/-- What wrapping does to a table while some values are held. -/
structure Keeps (held : List Value) (t u : WrapperTable) : Prop where
  next_le : t.next ≤ u.next
  kept : ∀ (a : Nat) (y : Wrapper), t.cached[a]? = some y → Value.anyHolds y.id held = true →
    u.cached[a]? = some y
  fresh : ∀ (a : Nat) (y : Wrapper), u.cached[a]? = some y → t.cached[a]? = some y ∨ t.next ≤ y.id
  sound : t.Sound → u.Sound

variable {held : List Value} {t u v : WrapperTable} {x : Wrapper} {address : Nat}

theorem sound_empty : empty.Sound where
  below a y found := by simp [empty] at found
  unique a b y z found := by simp [empty] at found
  nonzero a y found := by simp [empty] at found

theorem Keeps.refl (held : List Value) (t : WrapperTable) : t.Keeps held t :=
  ⟨Nat.le_refl _, fun _ _ found _ => found, fun _ _ => .inl, id⟩

theorem Keeps.trans (first : t.Keeps held u) (second : u.Keeps held v) : t.Keeps held v where
  next_le := Nat.le_trans first.next_le second.next_le
  kept a y found held := second.kept a y (first.kept a y found held) held
  fresh a y found := by
    rcases second.fresh a y found with earlier | later
    · exact first.fresh a y earlier
    · exact .inr (Nat.le_trans first.next_le later)
  sound sound := second.sound (first.sound sound)

/-- While more is held, more is kept. -/
theorem Keeps.fewer {value : Value} (keeps : t.Keeps (value :: held) u) : t.Keeps held u where
  __ := keeps
  kept a y found holds := keeps.kept a y found (Value.anyHolds_cons holds value)

theorem Knows.later (knows : t.Knows held x) (keeps : t.Keeps held u) : u.Knows held x :=
  ⟨keeps.kept x.address x knows.cached knows.held, knows.held⟩

theorem Knows.holding (knows : t.Knows held x) (value : Value) : t.Knows (value :: held) x :=
  ⟨knows.cached, Value.anyHolds_cons knows.held value⟩

theorem lookup?_eq (knows : t.Knows held x) : t.lookup? held x.address = some x := by
  rw [lookup?, knows.cached, Option.filter_some, if_pos knows.held]

theorem cached_of_lookup? (found : t.lookup? held address = some x) :
    t.cached[address]? = some x := by
  rw [lookup?, Option.filter_eq_some_iff] at found
  exact found.1

theorem wrap_of_knows (knows : t.Knows held x) (typeName : String) (adopts : Bool) :
    t.wrap held x.address typeName adopts = (x, t) := by
  rw [wrap, lookup?_eq knows]

variable (held t)

theorem keeps_wrap (somewhere : address ≠ 0) (typeName : String) (adopts : Bool) :
    t.Keeps held (t.wrap held address typeName adopts).2 := by
  unfold wrap
  cases found : t.lookup? held address with
  | some w => exact .refl held t
  | none =>
    have unheld (y : Wrapper) (cached : t.cached[address]? = some y) :
        Value.anyHolds y.id held = false := by
      rw [lookup?, cached, Option.filter_some] at found
      simpa using found
    refine ⟨Nat.le_succ _, fun a y cached holds => ?_, fun a y cached => ?_, fun sound => ?_⟩
    · dsimp only [fresh]
      rw [Std.TreeMap.getElem?_insert, if_neg]
      · exact cached
      · intro same
        cases Std.LawfulEqCmp.eq_of_compare same
        rw [unheld y cached] at holds
        cases holds
    · dsimp only [fresh] at cached
      rw [Std.TreeMap.getElem?_insert] at cached
      split at cached
      · cases cached
        exact .inr (Nat.le_refl _)
      · exact .inl cached
    · refine ⟨fun a y cached => ?_, fun a b y z first second same => ?_, fun a y cached => ?_⟩
      · dsimp only [fresh] at cached ⊢
        rw [Std.TreeMap.getElem?_insert] at cached
        split at cached
        · cases cached
          exact Nat.lt_succ_self _
        · exact Nat.lt_succ_of_lt (sound.below a y cached)
      · dsimp only [fresh] at first second
        rw [Std.TreeMap.getElem?_insert] at first second
        split at first <;> split at second <;> rename_i here there
        · exact (Std.LawfulEqCmp.eq_of_compare here).symm.trans (Std.LawfulEqCmp.eq_of_compare there)
        · cases first
          exact absurd same (Nat.ne_of_gt (sound.below b z second))
        · cases second
          exact absurd same (Nat.ne_of_lt (sound.below a y first))
        · exact sound.unique a b y z first second same
      · dsimp only [fresh] at cached
        rw [Std.TreeMap.getElem?_insert] at cached
        split at cached
        · rename_i here
          exact Std.LawfulEqCmp.eq_of_compare here ▸ somewhere
        · exact sound.nonzero a y cached

/-- The wrapper that an address is given is from then on the one that it has. -/
theorem wrap_cached (address : Nat) (typeName : String) (adopts : Bool) :
    (t.wrap held address typeName adopts).2.cached[
        (t.wrap held address typeName adopts).1.address]? =
      some (t.wrap held address typeName adopts).1 := by
  unfold wrap
  cases found : t.lookup? held address with
  | some w =>
    have cached := cached_of_lookup? found
    dsimp only
    rwa [t.addressed address w cached]
  | none => simp [fresh]

end WrapperTable

/-! ### Lifting -/

namespace Descriptor

def isInstance : Descriptor → Bool
  | .named (.structured _ _) _ _ | .named .object _ _ => true
  | _ => false

end Descriptor

/-- The address of a node, a number of nodes further along a chain. -/
def Heap.LeadsOn (h : Heap) : Nat → Nat → Nat → Prop
  | start, 0, node => node = start
  | start, count + 1, node => start ≠ 0 ∧ ∃ next, nextNode start h = .ok next h ∧
      h.LeadsOn next count node

/-- In the value that was lifted from a slot of the type, `u` is in the place of a struct or an object
of which native memory has the address. -/
inductive Descriptor.Places (h : Heap) (address : Nat) (u : Value) :
    Descriptor → Slot → Value → Prop
  | whole {d : Descriptor} {slot : Slot} (isInstance : d.isInstance = true)
      (refers : slot.toNat = address) : Places h address u d slot u
  | inline {element : Descriptor} {mode : ArrayLength} {form : ArrayForm} {pointer : Bool} {slot : Slot}
      {items : List Value} {i : Nat} (inline : element.isInlineStruct = true)
      (here : elementAddress slot.toNat i element.size = .ok address)
      (item : items[i]? = some u) :
      Places h address u (.array element mode form pointer) slot (.array items)
  | element {element : Descriptor} {mode : ArrayLength} {form : ArrayForm} {pointer : Bool}
      {slot inner : Slot} {items : List Value} {i place : Nat} {v : Value}
      (behind : element.isInlineStruct = false)
      (here : elementAddress slot.toNat i element.size = .ok place)
      (load : Heap.load place element.size h = .ok inner h) (item : items[i]? = some v)
      (rest : Places h address u element inner v) :
      Places h address u (.array element mode form pointer) slot (.array items)
  | node {element : Descriptor} {singlyLinked pointer : Bool} {slot inner : Slot}
      {items : List Value} {i node : Nat} {v : Value} (here : h.LeadsOn slot.toNat i node)
      (load : Heap.load node 8 h = .ok inner h) (item : items[i]? = some v)
      (rest : Places h address u element inner v) :
      Places h address u (.list element singlyLinked pointer) slot (.array items)

/-- Lifting led from `m` to `t` and gave the wrappers. In every later heap, what it gave is right for
the wrappers that are held. -/
structure Memory.Lifts (held : List Value) (m : Memory) (given : List Wrapper)
    (right : Heap → Wrapper → Prop) (t : Memory) : Prop where
  keeps : m.wrappers.Keeps held t.wrappers
  prolongs : m.heap.Prolongs t.heap
  cached : ∀ y ∈ given, t.wrappers.cached[y.address]? = some y
  right : ∀ (h : Heap) (x : Wrapper), t.heap.Prolongs h → m.wrappers.Knows held x → x.address ≠ 0 →
    right h x

namespace Memory.Lifts

variable {held : List Value} {m t u : Memory} {given : List Wrapper} {P Q : Heap → Wrapper → Prop}
  {v : Value}

/-- What is no wrapper and has none in it. -/
theorem plain (held : List Value) (m : Memory) (right : ∀ h x, P h x) : m.Lifts held [] P m :=
  ⟨.refl held _, .refl _, nofun, fun h x _ _ _ => right h x⟩

theorem seq (first : m.Lifts held v.wrappers P t) (second : t.Lifts (v :: held) given Q u) :
    m.Lifts held (v.wrappers ++ given) (fun h x => P h x ∧ Q h x) u where
  keeps := first.keeps.trans second.keeps.fewer
  prolongs := first.prolongs.trans second.prolongs
  cached y listed := by
    rcases List.mem_append.1 listed with earlier | later
    · exact second.keeps.kept _ y (first.cached y earlier) (Value.anyHolds_cons_of_mem earlier held)
    · exact second.cached y later
  right h x prolongs knows somewhere :=
    ⟨first.right h x (second.prolongs.trans prolongs) knows somewhere,
      second.right h x prolongs ((knows.later first.keeps).holding v) somewhere⟩

theorem weaken (lifts : m.Lifts held given P t)
    (weaker : ∀ h x, t.heap.Prolongs h → P h x → Q h x) : m.Lifts held given Q t where
  __ := lifts
  right h x prolongs knows somewhere :=
    weaker h x prolongs (lifts.right h x prolongs knows somewhere)

end Memory.Lifts

variable {m : Memory} {held : List Value}

theorem gives_reading {ε α : Type} {x : Action ε Heap α} (reads : x.Across fun h g => g = h) :
    (Memory.onHeap x).Gives m (fun a t => t = m ∧ x m.heap = .ok a m.heap) (fun _ t => t = m)
      fun _ => True := by
  rw [gives_onHeap]
  refine ((reads m.heap).both (gives_self x m.heap)).mono ?_ ?_
  · rintro a h ⟨rfl, run⟩
    exact ⟨rfl, run⟩
  · rintro e h ⟨rfl, -⟩
    rfl

theorem ok_of_act {α : Type} {x : HeapM α} {h g : Heap} {a : α}
    (run : (Heap.act x : Action ConversionFault Heap α) h = .ok a g) : x h = .ok a g := by
  rw [Heap.act, Action.mapError] at run
  cases result : x h with
  | ok b k =>
    rw [result] at run
    cases run
    rfl
  | error e k =>
    rw [result] at run
    cases e <;> cases run

theorem Heap.Prolongs.nextNode {h g : Heap} {node next : Nat} (prolongs : h.Prolongs g)
    (run : nextNode node h = .ok next h) : ForeignCall.nextNode node g = .ok next g := by
  unfold ForeignCall.nextNode at run ⊢
  cases placed : elementAddress node 1 nextOffset with
  | error fault =>
    rw [placed] at run
    cases run
  | ok address =>
    have found (k : Heap) : (Action.ofExcept (.ok address) : LayoutM Nat) k = .ok address k := rfl
    rw [placed, bind_of_ok (found h)] at run
    rw [bind_of_ok (found g)]
    obtain ⟨slot, k, loaded, done⟩ := exists_of_bind (ok_of_act run)
    cases done
    refine act_of_ok ?_
    rw [Heap.loadPointer, bind_of_ok (prolongs.load loaded)]
    rfl

/-- If an address has a wrapper that is held, it is lifted to that wrapper. -/
def Value.Stands (v : Value) (address : Nat) (_ : Heap) (x : Wrapper) : Prop :=
  x.address = address → v = .object x

theorem lifts_wrap {t : Memory} {address place : Nat}
    (unknown : m.wrappers.lookup? held address = none) (prolongs : m.heap.Prolongs t.heap)
    (same : t.wrappers = m.wrappers) (somewhere : place ≠ 0) (typeName : String) (adopts : Bool) :
    (do return .object (← Memory.wrap held place typeName adopts) : ConversionM Value).Gives t
      (fun v u => m.Lifts held v.wrappers (v.Stands address) u)
      (fun _ u => m.wrappers.Keeps held u.wrappers) fun _ => True := by
  have keeps := t.wrappers.keeps_wrap held somewhere typeName adopts
  have cached := t.wrappers.wrap_cached held place typeName adopts
  refine ⟨same ▸ keeps, prolongs, fun y listed => ?_, fun h x _ knows _ here => ?_⟩
  · cases List.mem_singleton.1 listed
    exact cached
  · subst here
    cases unknown.symm.trans (WrapperTable.lookup?_eq knows)

theorem lifts_liftInstance (d : Descriptor) (address : Nat) (copy : Bool) :
    (liftInstance held d address copy).Gives m
      (fun v t => m.Lifts held v.wrappers (v.Stands address) t)
      (fun _ t => m.wrappers.Keeps held t.wrappers) fun _ => True := by
  unfold liftInstance
  split
  · rename_i null
    exact ⟨.refl held _, .refl _, nofun, fun h x _ _ somewhere here =>
      absurd (here.trans null) somewhere⟩
  · rename_i somewhere
    rw [gives_bind, gives_get]
    cases found : m.wrappers.lookup? held address with
    | some w =>
      have cached := WrapperTable.cached_of_lookup? found
      refine ⟨.refl held _, .refl _, fun y listed => ?_, fun h x _ knows _ here => ?_⟩
      · cases List.mem_singleton.1 listed
        rwa [m.wrappers.addressed address w cached]
      · subst here
        cases cached.symm.trans knows.cached
        rfl
    | none =>
      dsimp only
      split
      · split
        · split
          · exact WrapperTable.Keeps.refl held _
          · rw [gives_bind, gives_touch]
            refine Heap.gives_copyBlock.partly.mono (fun copied h grown => ?_) fun _ h _ => ?_
            · obtain ⟨n, grows⟩ := grown
              have inside := (h.live_inside copied n (grows.live (List.mem_singleton_self _))).1
              have placed : copied ≠ 0 := by
                rintro rfl
                exact absurd inside (by decide)
              exact lifts_wrap (t := { m with heap := h }) found grows.toProlongs rfl placed _ _
            · exact WrapperTable.Keeps.refl held _
        · exact lifts_wrap found (.refl _) rfl somewhere _ _
      · exact lifts_wrap found (.refl _) rfl somewhere _ _

section Loops

variable {liftAt : List Value → Nat → ConversionM Value} {liftItem : List Value → Slot → ConversionM Value}

theorem lifts_liftPositions (right : Nat → Value → Heap → Wrapper → Prop)
    (lifts : ∀ held position m, (liftAt held position).Gives m
      (fun v t => m.Lifts held v.wrappers (right position v) t)
      (fun _ t => m.wrappers.Keeps held t.wrappers) fun _ => True)
    (held : List Value) (count position : Nat) (m : Memory) :
    (liftPositions liftAt held count position).Gives m
      (fun vs t => m.Lifts held (Value.wrappersOf vs)
        (fun h x => ∀ i v, vs[i]? = some v → right (position + i) v h x) t)
      (fun _ t => m.wrappers.Keeps held t.wrappers) fun _ => True := by
  induction count generalizing held position m with
  | zero => exact .plain held m fun h x i v found => by cases found
  | succ count ih =>
    rw [liftPositions, gives_bind]
    refine (lifts held position m).mono (fun v t first => ?_) fun _ _ failed => failed
    rw [gives_bind]
    refine (ih (v :: held) (position + 1) t).mono (fun vs u second => ?_) fun _ u failed =>
      first.keeps.trans failed.fewer
    refine (first.seq second).weaken fun h x _ both i w found => ?_
    cases i with
    | zero =>
      cases found
      exact both.1
    | succ i =>
      have moved : position + 1 + i = position + (i + 1) := by omega
      exact moved ▸ both.2 i w found

theorem lifts_liftNodes {right : Slot → Value → Heap → Wrapper → Prop}
    (lifts : ∀ held item m, (liftItem held item).Gives m
      (fun v t => m.Lifts held v.wrappers (right item v) t)
      (fun _ t => m.wrappers.Keeps held t.wrappers) fun _ => True)
    (held : List Value) (fuel start : Nat) (m : Memory) :
    (liftNodes liftItem held fuel start).Gives m
      (fun vs t => m.Lifts held (Value.wrappersOf vs)
        (fun h x => ∀ i node item v, h.LeadsOn start i node → Heap.load node 8 h = .ok item h →
          vs[i]? = some v → right item v h x) t)
      (fun _ t => m.wrappers.Keeps held t.wrappers) fun _ => True := by
  induction fuel generalizing held start m with
  | zero => exact trivial
  | succ fuel ih =>
    rw [liftNodes]
    split
    · exact .plain held m fun h x i node item v _ _ found => by cases found
    · rw [gives_bind]
      refine (gives_reading (across_load Heap.composes_same start 8).mapError).mono ?_ ?_
      · rintro item _ ⟨rfl, loaded⟩
        rw [gives_bind]
        refine (lifts held item _).mono (fun v t first => ?_) fun _ _ failed => failed
        rw [gives_bind]
        refine (gives_reading (across_nextNode Heap.composes_same start)).mono ?_ ?_
        · rintro next _ ⟨rfl, stepped⟩
          rw [gives_bind]
          refine (ih (v :: held) next _).mono (fun vs u second => ?_) fun _ u failed =>
            first.keeps.trans failed.fewer
          refine (first.seq second).weaken fun h x prolongs both i node item' w along load found => ?_
          have early := first.prolongs.trans (second.prolongs.trans prolongs)
          cases i with
          | zero =>
            cases found
            cases along
            cases load.symm.trans (early.load (ok_of_act loaded))
            exact both.1
          | succ i =>
            obtain ⟨_, next', stepped', along⟩ := along
            have later := second.prolongs.trans prolongs
            cases stepped'.symm.trans (later.nextNode stepped)
            exact both.2 i node item' w along load found
        · rintro e _ rfl
          exact first.keeps
      · rintro e _ rfl
        exact .refl held _

end Loops

/-- The element that a buffer has at a position is what is lifted there, or the struct that is there. -/
def Value.StandsAt (v : Value) (element : Descriptor) (right : Slot → Value → Heap → Wrapper → Prop)
    (base i : Nat) (h : Heap) (x : Wrapper) : Prop :=
  ∀ place, elementAddress base i element.size = .ok place →
    (element.isInlineStruct = true → v.Stands place h x) ∧
      (element.isInlineStruct = false → ∀ item, Heap.load place element.size h = .ok item h →
        right item v h x)

theorem lifts_liftBuffer {liftItem : List Value → Slot → ConversionM Value} {element : Descriptor}
    {right : Slot → Value → Heap → Wrapper → Prop}
    (lifts : ∀ held item m, (liftItem held item).Gives m
      (fun v t => m.Lifts held v.wrappers (right item v) t)
      (fun _ t => m.wrappers.Keeps held t.wrappers) fun _ => True)
    (held : List Value) (base count : Nat) (m : Memory) :
    (liftBuffer liftItem held element base count).Gives m
      (fun v t => m.Lifts held v.wrappers (fun h x => ∀ items, v = .array items →
        ∀ (i : Nat) (v : Value), items[i]? = some v → v.StandsAt element right base i h x) t)
      (fun _ t => m.wrappers.Keeps held t.wrappers) fun _ => True := by
  rw [liftBuffer, gives_bind]
  refine (lifts_liftPositions (fun i v => Value.StandsAt v element right base i)
    (fun held i m => ?_) held count 0 m).mono (fun vs t lifted => ?_) fun _ _ failed => failed
  · rw [gives_bind, gives_ofExcept]
    cases placed : elementAddress base i element.size with
    | error fault => exact .refl held _
    | ok address =>
      dsimp only
      split
      · rename_i inline
        refine (lifts_liftInstance element address true).mono (fun v t lifted => ?_)
          fun _ _ failed => failed
        refine lifted.weaken fun h x _ stands place here => ⟨fun _ => ?_, fun behind => ?_⟩
        · cases placed.symm.trans here
          exact stands
        · rw [inline] at behind
          cases behind
      · rename_i behind
        rw [gives_bind]
        refine (gives_reading (across_load Heap.composes_same address _).mapError).mono ?_ ?_
        · rintro item _ ⟨rfl, loaded⟩
          refine (lifts held item _).mono (fun v t lifted => ?_) fun _ _ failed => failed
          refine lifted.weaken fun h x prolongs isRight place here => ⟨fun inline => ?_, ?_⟩
          · exact absurd inline behind
          · intro _ item' load
            cases placed.symm.trans here
            have early := lifted.prolongs.trans prolongs
            cases load.symm.trans (early.load (ok_of_act loaded))
            exact isRight
        · rintro e _ rfl
          exact .refl held _
  · refine lifted.weaken fun h x _ each items same i v found => ?_
    cases same
    exact Nat.zero_add i ▸ each i v found

section Plain

variable {held : List Value} {m : Memory} {right : Value → Heap → Wrapper → Prop}

theorem Descriptor.not_places_basic {type : BasicType} {pointer : Bool} {slot : Slot} {v u : Value}
    {h : Heap} {address : Nat} : ¬ (Descriptor.basic type pointer).Places h address u slot v := by
  rintro ⟨⟨⟩⟩

theorem Descriptor.isInstance_of_places {type : NamedType} {name : String} {pointer : Bool}
    {slot : Slot} {v u : Value} {h : Heap} {address : Nat}
    (places : (Descriptor.named type name pointer).Places h address u slot v) :
    (Descriptor.named type name pointer).isInstance = true ∧ u = v ∧ slot.toNat = address := by
  cases places with
  | whole isInstance refers => exact ⟨isInstance, rfl, refers⟩

/-- A value of a basic type has no wrapper in it. -/
theorem lifts_lift_basic {type : BasicType} {pointer : Bool} {slot : Slot} {length : Option Nat}
    {copy : Bool} (anyway : ∀ v h x, right v h x) :
    (lift held (.basic type pointer) slot length copy).Gives m
      (fun v t => m.Lifts held v.wrappers (right v) t)
      (fun _ t => m.wrappers.Keeps held t.wrappers) fun _ => True := by
  cases type with
  | void =>
    rw [lift]
    split
    · exact .plain held m (anyway _)
    · split <;> exact .plain held m (anyway _)
  | string filename =>
    rw [lift]
    split
    · exact .plain held m (anyway _)
    · rw [gives_bind]
      refine (gives_reading (across_readString Heap.composes_same _).mapError).mono ?_ ?_
      · rintro text _ ⟨rfl, -⟩
        exact .plain held _ (anyway _)
      · rintro e _ rfl
        exact .refl held _
  | unichar =>
    rw [lift, liftChar]
    split
    · exact .plain held m (anyway _)
    · exact .refl held _
  | error => exact .refl held _
  | _ => exact .plain held m (anyway _)

theorem lifts_liftCallback {address : Nat} (anyway : ∀ v h x, right v h x) :
    (liftCallback address).Gives m (fun v t => m.Lifts held v.wrappers (right v) t)
      (fun _ t => m.wrappers.Keeps held t.wrappers) fun _ => True := by
  rw [liftCallback]
  split
  · exact .plain held m (anyway _)
  · rw [gives_bind, gives_get]
    cases m.trampolines.get? address with
    | some trampoline => exact .plain held m (anyway _)
    | none => exact .refl held _

end Plain

/-- Lifting keeps the wrappers that are held. All wrappers in what it gives are in the table, and where
an address with a wrapper that is held stood, that wrapper stands. -/
theorem lifts_lift (held : List Value) (d : Descriptor) (slot : Slot) (length : Option Nat)
    (copy : Bool) (m : Memory) :
    (lift held d slot length copy).Gives m
      (fun v t => m.Lifts held v.wrappers
        (fun h x => ∀ u, d.Places h x.address u slot v → u = .object x) t)
      (fun _ t => m.wrappers.Keeps held t.wrappers) fun _ => True := by
  induction d generalizing held slot length m with
  | basic type pointer =>
    exact lifts_lift_basic fun _ _ _ _ places => (Descriptor.not_places_basic places).elim
  | named type name pointer =>
    have instances : (liftInstance held (.named type name pointer) slot.toNat copy).Gives m
        (fun v t => m.Lifts held v.wrappers (fun h x => ∀ u,
          (Descriptor.named type name pointer).Places h x.address u slot v → u = .object x) t)
        (fun _ t => m.wrappers.Keeps held t.wrappers) fun _ => True := by
      refine (lifts_liftInstance _ _ _).mono (fun v t lifted => lifted.weaken ?_) fun _ _ failed => failed
      intro h x _ stands u places
      obtain ⟨-, rfl, refers⟩ := Descriptor.isInstance_of_places places
      exact stands refers.symm
    cases type with
    | enumeration storage flags =>
      refine .plain held m fun h x u places => ?_
      cases (Descriptor.isInstance_of_places places).1
    | callback =>
      refine lifts_liftCallback fun v h x u places => ?_
      cases (Descriptor.isInstance_of_places places).1
    | structured size byValue => exact instances
    | object => exact instances
  | hash key value pointer => exact .refl held _
  | array element mode form pointer ih =>
    rw [lift]
    split
    · refine .plain held m fun h x u places => ?_
      cases places with
      | whole isInstance => cases isInstance
    · rw [gives_bind]
      refine (gives_reading (across_arrayLength Heap.composes_same _ _ _)).mono ?_ ?_
      · rintro count _ ⟨rfl, -⟩
        refine (lifts_liftBuffer (fun held item => ih held item none) held slot.toNat count _).mono
          (fun v t lifted => lifted.weaken fun h x _ each u places => ?_) fun _ _ failed => failed
        cases places with
        | whole isInstance => cases isInstance
        | inline inline here item => exact ((each _ rfl _ _ item _ here).1 inline) rfl
        | element behind here load item rest =>
          exact (each _ rfl _ _ item _ here).2 behind _ load u rest
      · rintro e _ rfl
        exact .refl held _
  | list element singlyLinked pointer ih =>
    rw [lift, gives_bind]
    refine (lifts_liftNodes (fun held item => ih held item none) held chainBound slot.toNat m).mono
      (fun vs t lifted => lifted.weaken fun h x _ each u places => ?_) fun _ _ failed => failed
    cases places with
    | whole isInstance => cases isInstance
    | node here load item rest => exact each _ _ _ _ here load item u rest

end ForeignCall
