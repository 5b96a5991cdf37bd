import ForeignCall.Proofs.Conversion.Repeating
import Mathlib.Data.Finset.Card

/-!
Lists that are closed into rings.

A node leads to the same node whenever the walk comes to it, so a walk that returns to a node never
comes to an end, however many nodes it may see. A walk that does not return ends within the nodes there
are addresses for, and so does lifting the list, if lifting each of its elements does.
-/

set_option autoImplicit false

namespace ForeignCall

open ForeignCall.Action

/-! ### Ends -/

section Ends

variable {ε σ α β : Type} {x : Action ε σ α} {s t : σ}

/-- It ends with a value or an error, and is not halted. -/
def Action.Ends (x : Action ε σ α) (s : σ) : Prop :=
  x.Gives s (fun _ _ => True) (fun _ _ => True) fun _ => False

theorem ends_pure (a : α) : (pure a : Action ε σ α).Ends s := trivial

theorem not_ends_endless : ¬ (endless : Action ε σ α).Ends s := id

theorem ends_bind_iff {f : α → Action ε σ β} :
    (x >>= f).Ends s ↔ x.Ends s ∧ ∀ a t, x s = .ok a t → (f a).Ends t := by
  simp only [Action.Ends, gives_bind]
  simp only [Gives]
  cases x s with
  | ok a t =>
    constructor
    · rintro ends
      refine ⟨trivial, fun b u same => ?_⟩
      cases same
      exact ends
    · exact fun ends => ends.2 a t rfl
  | error stop t =>
    cases stop with
    | error e => simp
    | halt h => simp

/-- What ends and does not fail gives a value. -/
theorem Action.Ends.exists_ok {ok : α → σ → Prop} {halted : Halt → Prop} (ends : x.Ends s)
    (serves : x.Gives s ok (fun _ _ => False) halted) : ∃ a t, x s = .ok a t ∧ ok a t :=
  ((ends.both serves).mono (fun _ _ both => both.2) fun _ _ never => never.2).exists_ok

end Ends

/-! ### Walks -/

/-- Where a walk along a chain of nodes has come to: the values that are held, and the next node. -/
structure Walk where
  held : List Value
  node : Nat
  memory : Memory

namespace Walk

variable (liftItem : List Value → Slot → ConversionM Value)

/-- One node further, unless the chain is over or the item of the node is not lifted. -/
def onward (w : Walk) : Option Walk :=
  if w.node = 0 then none
  else
    match liftNode liftItem w.held w.node w.memory with
    | .ok (v, next) memory => some ⟨v :: w.held, next, memory⟩
    | .error _ _ => none

/-- A number of nodes further. -/
def after : Walk → Nat → Option Walk
  | w, 0 => some w
  | w, n + 1 => (w.onward liftItem).bind fun next => next.after n

variable {liftItem} {w u y : Walk} {m n fuel : Nat}

theorem onward_of_null (null : w.node = 0) : w.onward liftItem = none := if_pos null

theorem onward_eq_some (moved : w.onward liftItem = some u) : w.node ≠ 0 ∧ ∃ v,
    liftNode liftItem w.held w.node w.memory = .ok (v, u.node) u.memory ∧ u.held = v :: w.held := by
  unfold onward at moved
  split at moved
  · cases moved
  · rename_i somewhere
    split at moved
    · rename_i v next memory ran
      cases moved
      exact ⟨somewhere, v, ran, rfl⟩
    · cases moved

theorem onward_of_ok {v : Value} {next : Nat} {memory : Memory} (somewhere : w.node ≠ 0)
    (ran : liftNode liftItem w.held w.node w.memory = .ok (v, next) memory) :
    w.onward liftItem = some ⟨v :: w.held, next, memory⟩ := by
  rw [onward, if_neg somewhere, ran]

theorem after_of_onward (moved : w.onward liftItem = some u) (n : Nat) :
    w.after liftItem (n + 1) = u.after liftItem n := by
  rw [after, moved, Option.bind_some]

theorem after_add (w : Walk) (m n : Nat) :
    w.after liftItem (m + n) = (w.after liftItem m).bind fun u => u.after liftItem n := by
  induction m generalizing w with
  | zero => rw [Nat.zero_add, after, Option.bind_some]
  | succ m ih =>
    rw [Nat.add_right_comm, after, after, Option.bind_assoc]
    congr 1
    funext u
    exact ih u

theorem after_from (reached : w.after liftItem m = some u) (n : Nat) :
    w.after liftItem (m + n) = u.after liftItem n := by
  rw [after_add, reached, Option.bind_some]

/-- What comes before in a walk was come to. -/
theorem exists_after_of_le (less : m ≤ n) (reached : w.after liftItem n = some u) :
    ∃ y, w.after liftItem m = some y ∧ y.after liftItem (n - m) = some u := by
  obtain ⟨k, rfl⟩ := Nat.exists_eq_add_of_le less
  rw [Nat.add_sub_cancel_left]
  rw [after_add] at reached
  exact Option.bind_eq_some_iff.1 reached

/-- The node that a walk has come to is the last one, or lifting it ends. -/
def Settles (liftItem : List Value → Slot → ConversionM Value) (w : Walk) : Prop :=
  w.node ≠ 0 → (liftNode liftItem w.held w.node).Ends w.memory

/-- Lifting the nodes ends when lifting the first of them does, and then lifting the others. -/
theorem liftNodes_succ_ends_iff (w : Walk) (fuel : Nat) :
    (liftNodes liftItem w.held (fuel + 1) w.node).Ends w.memory ↔ w.Settles liftItem ∧
      ∀ y, w.onward liftItem = some y → (liftNodes liftItem y.held fuel y.node).Ends y.memory := by
  by_cases null : w.node = 0
  · rw [liftNodes, if_pos null, onward_of_null null]
    refine ⟨fun _ => ⟨fun somewhere => absurd null somewhere, fun y moved => ?_⟩, fun _ => ?_⟩
    · cases moved
    · exact ends_pure []
  · rw [liftNodes_succ null, ends_bind_iff]
    have others (v : Value) (next : Nat) (t : Memory) :
        ((do
          let rest ← liftNodes liftItem (v :: w.held) fuel next
          return v :: rest) : ConversionM (List Value)).Ends t ↔
          (liftNodes liftItem (v :: w.held) fuel next).Ends t := by
      rw [ends_bind_iff]
      exact and_iff_left fun _ _ _ => ends_pure _
    constructor
    · rintro ⟨first, onward⟩
      refine ⟨fun _ => first, fun y moved => ?_⟩
      obtain ⟨-, v, ran, held⟩ := onward_eq_some moved
      rw [held]
      exact (others v y.node y.memory).1 (onward _ _ ran)
    · rintro ⟨settles, onward⟩
      refine ⟨settles null, fun r t ran => ?_⟩
      exact (others r.1 r.2 t).2 (onward _ (onward_of_ok null ran))

/-- Lifting the nodes ends when the walk is over before the fuel is, and lifting each node ends. -/
theorem liftNodes_ends_iff (w : Walk) (fuel : Nat) :
    (liftNodes liftItem w.held fuel w.node).Ends w.memory ↔
      w.after liftItem fuel = none ∧ ∀ n u, w.after liftItem n = some u → u.Settles liftItem := by
  induction fuel generalizing w with
  -- Without fuel lifting does not end, and the walk is at its first node still.
  | zero => exact ⟨fun ends => (not_ends_endless ends).elim, fun stops => by cases stops.1⟩
  | succ fuel ih =>
    rw [liftNodes_succ_ends_iff]
    constructor
    · rintro ⟨first, others⟩
      refine ⟨Option.bind_eq_none_iff.2 fun y moved => ((ih y).1 (others y moved)).1, ?_⟩
      rintro (_ | n) u reached
      · cases reached
        exact first
      · obtain ⟨y, moved, reached⟩ := Option.bind_eq_some_iff.1 reached
        exact ((ih y).1 (others y moved)).2 n u reached
    · rintro ⟨stops, settles⟩
      refine ⟨settles 0 w rfl, fun y moved => (ih y).2 ⟨?_, fun n u reached => ?_⟩⟩
      · exact Option.bind_eq_none_iff.1 stops y moved
      · exact settles (n + 1) u ((after_of_onward moved n).trans reached)

/-! ### Walks that return to a node -/

/-- What is held and known only grows along a walk. -/
theorem later_of_after (repeats : ∀ item, Repeats fun held => liftItem held item)
    (reached : w.after liftItem n = some u) : Later w.held w.memory u.held u.memory := by
  induction n generalizing w with
  | zero =>
    cases reached
    exact .refl _ _
  | succ n ih =>
    obtain ⟨y, moved, reached⟩ := Option.bind_eq_some_iff.1 reached
    obtain ⟨-, v, ran, held⟩ := onward_eq_some moved
    have first := (liftNode_advances repeats w.held w.node w.memory).of_ok ran
    exact (held ▸ first).trans (ih reached)

/-- A walk that begins at the same node later comes to the same node, if it does not stop. -/
theorem follows (repeats : ∀ item, Repeats fun held => liftItem held item)
    (reached : w.after liftItem n = some u) (later : Later u.held u.memory y.held y.memory)
    (same : y.node = w.node)
    (settles : ∀ k x, y.after liftItem k = some x → x.Settles liftItem) :
    ∃ x, y.after liftItem n = some x ∧ x.node = u.node := by
  induction n generalizing w y with
  | zero =>
    cases reached
    exact ⟨y, rfl, same⟩
  | succ n ih =>
    obtain ⟨w', moved, reached⟩ := Option.bind_eq_some_iff.1 reached
    obtain ⟨somewhere, v, ran, held⟩ := onward_eq_some moved
    -- `y` is later than all of the first walk, so also than the step from its first node.
    have whole := (held ▸ later_of_after repeats reached).trans later
    have onward := settles 0 y rfl (same ▸ somewhere)
    rw [same] at onward
    obtain ⟨⟨v', next⟩, t, again, along, later'⟩ :=
      onward.exists_ok (liftNode_again repeats ran whole)
    have moved' : y.onward liftItem = some ⟨v' :: y.held, next, t⟩ :=
      onward_of_ok (same ▸ somewhere) (same ▸ again)
    obtain ⟨x, reached', there⟩ := ih reached (later.trans later') along fun k x reached' =>
      settles (k + 1) x ((after_of_onward moved' k).trans reached')
    exact ⟨x, (after_of_onward moved' n).trans reached', there⟩

/-- Once it is back at its first node, a walk goes the same way again, and again. -/
theorem after_ne_none (repeats : ∀ item, Repeats fun held => liftItem held item) {length : Nat}
    (some : 0 < length) (reached : w.after liftItem length = .some u) (back : u.node = w.node)
    (later : Later u.held u.memory y.held y.memory) (same : y.node = w.node)
    (settles : ∀ k x, y.after liftItem k = .some x → x.Settles liftItem) :
    y.after liftItem n ≠ none := by
  -- Each lap of `length` steps leads back to the node, later, and leaves less of the way.
  induction n using Nat.strongRecOn generalizing y with
  | ind n ih =>
    obtain ⟨x, around, there⟩ := follows repeats reached later same settles
    by_cases short : n ≤ length
    · obtain ⟨z, passed, -⟩ := exists_after_of_le short around
      rw [passed]
      exact Option.some_ne_none z
    · obtain ⟨k, rfl⟩ := Nat.exists_eq_add_of_le (Nat.le_of_not_ge short)
      rw [after_from around]
      refine ih k (by omega) (later.trans (later_of_after repeats around)) (there.trans back) ?_
      exact fun j z passed => settles (length + j) z ((after_from around j).trans passed)

/-- Lifting the nodes of a walk that returns to a node does not end, with no amount of fuel. -/
theorem not_ends_of_return (repeats : ∀ item, Repeats fun held => liftItem held item) {i j : Nat}
    (less : i < j) (first : w.after liftItem i = some u) (second : w.after liftItem j = some y)
    (same : u.node = y.node) (fuel : Nat) :
    ¬ (liftNodes liftItem w.held fuel w.node).Ends w.memory := by
  intro ends
  obtain ⟨stops, settles⟩ := (liftNodes_ends_iff w fuel).1 ends
  obtain ⟨length, rfl⟩ := Nat.exists_eq_add_of_lt less
  have around : u.after liftItem (length + 1) = some y := (after_from first _).symm.trans second
  have goes : y.after liftItem fuel ≠ none :=
    after_ne_none repeats (Nat.succ_pos length) around same.symm (.refl y.held y.memory) same.symm
      fun k x passed => settles (i + length + 1 + k) x ((after_from second k).trans passed)
  obtain ⟨x, far⟩ := Option.ne_none_iff_exists'.1 goes
  obtain ⟨z, passed, -⟩ :=
    exists_after_of_le (Nat.le_add_left fuel _) ((after_from second fuel).trans far)
  cases stops.symm.trans passed

/-- The next node is an address. -/
theorem next_lt {held : List Value} {node next : Nat} {m t : Memory} {v : Value}
    (ran : liftNode liftItem held node m = .ok (v, next) t) : next < UInt64.size := by
  obtain ⟨item, _, -, onward⟩ := exists_of_bind ran
  obtain ⟨v, u, -, onward⟩ := exists_of_bind onward
  obtain ⟨next, _, stepped, done⟩ := exists_of_bind onward
  cases done
  obtain ⟨rfl, stepped⟩ := stepped_of_onHeap stepped
  obtain ⟨place, h, -, loads⟩ := exists_of_bind stepped
  obtain ⟨slot, h', -, done⟩ := exists_of_bind (ok_of_act loads)
  cases done
  exact slot.toNat_lt

theorem node_lt (address : w.node < UInt64.size) (reached : w.after liftItem n = some u) :
    u.node < UInt64.size := by
  induction n generalizing w with
  | zero =>
    cases reached
    exact address
  | succ n ih =>
    obtain ⟨y, moved, reached⟩ := Option.bind_eq_some_iff.1 reached
    obtain ⟨-, v, ran, -⟩ := onward_eq_some moved
    exact ih (next_lt ran) reached

/-- A walk that comes to more nodes than there are to come to returns to one. -/
theorem exists_return (bounded : ∀ i u, w.after liftItem i = some u → u.node < n)
    (reached : w.after liftItem n = some u) :
    ∃ i j y z, i < j ∧ w.after liftItem i = some y ∧ w.after liftItem j = some z ∧
      y.node = z.node := by
  have each (i : Nat) (among : i ∈ Finset.range (n + 1)) : ∃ y, w.after liftItem i = some y := by
    obtain ⟨y, passed, -⟩ := exists_after_of_le (Nat.lt_succ_iff.1 (Finset.mem_range.1 among)) reached
    exact ⟨y, passed⟩
  -- There are `n + 1` places in the walk, and no more than `n` nodes for them.
  have more : (Finset.range n).card < (Finset.range (n + 1)).card := by
    rw [Finset.card_range, Finset.card_range]
    exact Nat.lt_succ_self n
  have inside (i : Nat) (among : i ∈ Finset.range (n + 1)) :
      (w.after liftItem i).elim 0 node ∈ Finset.range n := by
    obtain ⟨y, passed⟩ := each i among
    rw [passed]
    exact Finset.mem_range.2 (bounded i y passed)
  obtain ⟨i, amongI, j, amongJ, distinct, same⟩ :=
    Finset.exists_ne_map_eq_of_card_lt_of_maps_to more inside
  obtain ⟨y, passed⟩ := each i amongI
  obtain ⟨z, passed'⟩ := each j amongJ
  simp only [passed, passed', Option.elim] at same
  rcases Nat.lt_or_gt_of_ne distinct with less | less
  · exact ⟨i, j, y, z, less, passed, passed', same⟩
  · exact ⟨j, i, z, y, less, passed', passed, same.symm⟩

/-- The fuel is enough for a walk that returns to no node. -/
theorem after_chainBound (address : w.node < UInt64.size)
    (straight : ∀ i j u y, i < j → w.after liftItem i = some u → w.after liftItem j = some y →
      u.node ≠ y.node) : w.after liftItem chainBound = none := by
  by_contra goes
  obtain ⟨x, far⟩ := Option.ne_none_iff_exists'.1 goes
  obtain ⟨u, reached, -⟩ := exists_after_of_le (Nat.le_succ UInt64.size) far
  obtain ⟨i, j, y, z, less, first, second, same⟩ :=
    exists_return (fun _ _ passed => node_lt address passed) reached
  exact straight i j y z less first second same

end Walk

/-! ### Lists -/

variable {liftItem : List Value → Slot → ConversionM Value} {held : List Value} {node : Nat}
  {m : Memory}

/-- A node is lifted to an end if its item is: to read it and the next node takes no walk. -/
theorem liftNode_ends_iff : (liftNode liftItem held node).Ends m ↔
    ∀ item, Heap.load node 8 m.heap = .ok item m.heap → (liftItem held item).Ends m := by
  have reads : (Memory.touch (Heap.load node 8) : ConversionM Slot).Ends m :=
    (Heap.halting_load node 8).mapError.onHeap m
  have steps (t : Memory) : (Memory.onHeap (nextNode node) : ConversionM Nat).Ends t :=
    (halting_nextNode node).onHeap t
  rw [liftNode, ends_bind_iff]
  constructor
  · rintro ⟨-, onward⟩ item loaded
    exact (ends_bind_iff.1 (onward item m (onHeap_of_ok (act_of_ok loaded)))).1
  · intro items
    refine ⟨reads, fun item t loaded => ?_⟩
    obtain ⟨rfl, loaded⟩ := loaded_of_touch loaded
    refine ends_bind_iff.2 ⟨items item loaded, fun v u _ => ?_⟩
    exact ends_bind_iff.2 ⟨steps u, fun _ _ _ => ends_pure _⟩

/-- What has no list in it, and no struct that is copied, is lifted to an end. -/
theorem lift_ends {d : Descriptor} {copy : Bool} (unchained : d.chained = false)
    (uncopied : d.copies copy = false) (slot : Slot) (length : Option Nat) :
    (lift held d slot length copy).Ends m := by
  refine (lift_halting d slot length).mono (fun h halts => ?_) m
  cases h with
  | endless => exact absurd (unchained.symm.trans halts) Bool.false_ne_true
  | exhausted => exact absurd (uncopied.symm.trans halts) Bool.false_ne_true

theorem lift_list_ends_iff_nodes {element : Descriptor} {singlyLinked pointer copy : Bool}
    {slot : Slot} {length : Option Nat} :
    (lift held (.list element singlyLinked pointer) slot length copy).Ends m ↔
      (liftNodes (fun held item => lift held element item none copy) held chainBound slot.toNat).Ends
        m := by
  rw [lift, ends_bind_iff]
  exact and_iff_left fun _ _ _ => ends_pure _

/-- Lifting a list ends with a value or an error exactly when the walk along its nodes comes to no node
twice and each element on the way is lifted to an end, as all are that have no list in them and copy
nothing. Once the walk returns to a node, no bound on the number of nodes is enough. -/
theorem lift_list_ends_iff (held : List Value) (element : Descriptor) (singlyLinked pointer : Bool)
    (slot : Slot) (length : Option Nat) (copy : Bool) (m : Memory) :
    let liftItem := fun held item => lift held element item none copy
    let start : Walk := ⟨held, slot.toNat, m⟩
    ((lift held (.list element singlyLinked pointer) slot length copy).Ends m ↔
      (∀ i j u y, i < j → start.after liftItem i = some u → start.after liftItem j = some y →
        u.node ≠ y.node) ∧
      ∀ n u item, start.after liftItem n = some u → u.node ≠ 0 →
        Heap.load u.node 8 u.memory.heap = .ok item u.memory.heap →
        (liftItem u.held item).Ends u.memory) ∧
    (element.chained = false → element.copies copy = false →
      ∀ held item t, (liftItem held item).Ends t) ∧
    ∀ i j u y, i < j → start.after liftItem i = some u → start.after liftItem j = some y →
      u.node = y.node → ∀ fuel, ¬ (liftNodes liftItem held fuel slot.toNat).Ends m := by
  intro liftItem start
  have repeats (item : Slot) : Repeats fun held => liftItem held item :=
    repeats_lift element item none copy
  have never (i j : Nat) (u y : Walk) (less : i < j) (first : start.after liftItem i = some u)
      (second : start.after liftItem j = some y) (same : u.node = y.node) (fuel : Nat) :
      ¬ (liftNodes liftItem held fuel slot.toNat).Ends m :=
    start.not_ends_of_return repeats less first second same fuel
  refine ⟨?_, fun unchained uncopied held item t => lift_ends unchained uncopied item none, never⟩
  rw [lift_list_ends_iff_nodes]
  constructor
  · intro ends
    refine ⟨fun i j u y less first second same => ?_, fun n u item reached somewhere loaded => ?_⟩
    · exact never i j u y less first second same chainBound ends
    · have settles := ((start.liftNodes_ends_iff chainBound).1 ends).2 n u reached
      exact liftNode_ends_iff.1 (settles somewhere) item loaded
  · rintro ⟨straight, items⟩
    refine (start.liftNodes_ends_iff chainBound).2 ⟨?_, fun n u reached somewhere => ?_⟩
    · exact Walk.after_chainBound slot.toNat_lt straight
    · exact liftNode_ends_iff.2 fun item loaded => items n u item reached somewhere loaded

/-- A node that is linked to itself, in a list of numbers. -/
theorem not_ends_lift_ring :
    let number : Descriptor := .basic (.integer ⟨.w32, true⟩) false
    ∃ m : Memory,
      (Memory.touch (do
        let node ← Heap.alloc 16 8
        Heap.storePointer (node + nextOffset) node
        return node) : ConversionM Nat) .empty = .ok 16 m ∧
      ¬ (lift [] (.list number true true) (.ofNat 16) none false).Ends m := by
  intro number
  let liftItem := fun held item => lift held number item none false
  obtain ⟨a, m, made, facts⟩ := exists_ok_such
    (x := (Memory.touch (do
      let node ← Heap.alloc 16 8
      Heap.storePointer (node + nextOffset) node
      return node) : ConversionM Nat)) (s := Memory.empty)
    (fun a m => a == 16 && (liftNode liftItem [] 16).succeeds m fun r _ => r.2 == 16)
    (by decide +kernel)
  simp only [Bool.and_eq_true, beq_iff_eq] at facts
  obtain ⟨rfl, round⟩ := facts
  obtain ⟨⟨v, next⟩, t, ran, same⟩ := exists_ok_such _ round
  obtain rfl := beq_iff_eq.1 same
  refine ⟨m, made, fun ends => ?_⟩
  rw [lift_list_ends_iff_nodes] at ends
  have first : Walk.after liftItem ⟨[], 16, m⟩ 1 = some ⟨[v], 16, t⟩ :=
    Walk.after_of_onward (Walk.onward_of_ok (Nat.succ_ne_zero 15) ran) 0
  exact Walk.not_ends_of_return (fun item => repeats_lift number item none false) Nat.zero_lt_one
    rfl first rfl chainBound ends

end ForeignCall
