import ForeignCall.Heap.Operation
import ForeignCall.Proofs.Ownership.Errors

/-!
The blocks of a heap over a whole history of operations.

A block is handed out when it is live after some beginning of the history, and freed when an
operation that frees its address found it live. What the heap keeps track of is exactly that: a free
is told from a second free and from a free of something that never was a block by the history alone,
and an allocation lies beyond everything that was ever handed out. Operations that fail or are halted
count with whatever they did before they stopped.
-/

set_option autoImplicit false

namespace ForeignCall

namespace Action

variable {ε σ α β : Type} {R : σ → σ → Prop} {x : Action ε σ α}

/-- `R` holds between the first state and the last one, however the action ends. -/
def Always (R : σ → σ → Prop) (x : Action ε σ α) : Prop := ∀ s, R s (x.last s)

theorem Always.bind {f : α → Action ε σ β} (first : x.Always R)
    (trans : ∀ {s t u}, R s t → R t u → R s u) (rest : ∀ a, (f a).Always R) :
    (x >>= f).Always R := by
  intro s
  have step := first s
  rcases run : x s with ⟨a, t⟩ | ⟨e, t⟩
  · rw [last_of_ok run] at step
    have whole : (x >>= f).last s = (f a).last t := by rw [last, bind_of_ok run, last]
    rw [whole]
    exact trans step (rest a t)
  · rw [last_of_error run] at step
    rwa [last_of_error (bind_of_error run)]

end Action

open ForeignCall.Action

/-! ### Alignment -/

theorem dvd_alignUp (value k : Nat) : 2 ^ k ∣ alignUp value (2 ^ k) := by
  have positive : 1 ≤ 2 ^ k := Nat.one_le_two_pow
  rw [alignUp, Nat.max_eq_left positive, Nat.and_two_pow_sub_one_eq_mod]
  exact Nat.dvd_sub_mod _

namespace Heap

variable {h g k : Heap} {b c : Block}

/-! ### What one operation does to the record of blocks -/

/-- `g` came from `h` by freeing the blocks at the addresses `gone` names, as far as they were
live, and by allocating beyond what `h` had. -/
structure Revised (gone : Nat → Prop) (h g : Heap) : Prop where
  size_le : h.size ≤ g.size
  live_iff : ∀ b, h.Live b → (g.Live b ↔ ¬ gone b.address)
  fresh : ∀ b, g.Live b → ¬ h.Live b → h.size ≤ b.address
  freed_iff : ∀ a, a ∈ g.freed ↔ a ∈ h.freed ∨ h.isLive a ∧ gone a

variable {gone gone' : Nat → Prop}

theorem Revised.refl (h : Heap) : Revised (fun _ => False) h h where
  size_le := Nat.le_refl _
  live_iff b live := by simpa using live
  fresh b live dead := absurd live dead
  freed_iff a := by simp

theorem Revised.congr (revised : Revised gone h g)
    (same : ∀ a, h.isLive a → (gone a ↔ gone' a)) : Revised gone' h g where
  size_le := revised.size_le
  live_iff b live := by
    rw [revised.live_iff b live, same _ (isLive_iff.2 ⟨_, live⟩)]
  fresh := revised.fresh
  freed_iff a := by
    rw [revised.freed_iff a]
    exact or_congr_right (and_congr_right fun live => same a live)

/-- What a second step frees has to be something the first step found. -/
theorem Revised.trans (first : Revised gone h g) (second : Revised gone' g k)
    (old : ∀ a, gone' a → g.isLive a → h.isLive a) :
    Revised (fun a => gone a ∨ gone' a) h k where
  size_le := Nat.le_trans first.size_le second.size_le
  live_iff b live := by
    by_cases kept : gone b.address
    · have dead : ¬ g.Live b := fun still => (first.live_iff b live).1 still kept
      have below := live.inside
      refine iff_of_false (fun again => ?_) fun neither => neither (.inl kept)
      have above := second.fresh b again dead
      have grown := first.size_le
      simp only [Block.stop] at below
      omega
    · rw [second.live_iff b ((first.live_iff b live).2 kept)]
      simp [kept]
  fresh b live dead := by
    by_cases between : g.Live b
    · exact first.fresh b between dead
    · exact Nat.le_trans first.size_le (second.fresh b live between)
  freed_iff a := by
    have still : g.isLive a → h.isLive a → ¬ gone a := by
      intro later earlier
      obtain ⟨n, live⟩ := isLive_iff.1 earlier
      obtain ⟨m, again⟩ := isLive_iff.1 later
      have same : (⟨a, m⟩ : Block) = ⟨a, n⟩ := by
        by_contra other
        by_cases before : h.Live ⟨a, m⟩
        · exact other (before.eq_of_address live rfl)
        · have above := first.fresh _ again before
          have below := live.inside
          simp only [Block.stop] at below above
          omega
      rw [same] at again
      exact (first.live_iff _ live).1 again
    have kept : h.isLive a → ¬ gone a → g.isLive a := by
      intro earlier kept
      obtain ⟨n, live⟩ := isLive_iff.1 earlier
      exact isLive_iff.2 ⟨n, (first.live_iff _ live).2 kept⟩
    rw [second.freed_iff, first.freed_iff]
    have found := old a
    grind

theorem Revised.of_grows {blocks : List Block} (grows : h.Grows g blocks)
    (same : g.freed = h.freed) : Revised (fun _ => False) h g where
  size_le := grows.size_le
  live_iff b live := by simpa using grows.keeps_live live
  fresh b live dead := grows.fresh b (((grows.live_iff b).1 live).resolve_left dead)
  freed_iff a := by simp [same]

theorem Revised.overwritten (h : Heap) (address : Nat) (bytes : List UInt8) :
    Revised (fun _ => False) h (h.overwritten address bytes) where
  size_le := Nat.le_of_eq (size_overwritten bytes).symm
  live_iff b live := by
    rw [not_false_iff, iff_true]
    exact live
  fresh b live dead := absurd live dead
  freed_iff a := by simp [Heap.overwritten]

/-- `g` came from `h` without freeing anything. -/
abbrev Gained : Heap → Heap → Prop := Revised fun _ => False

theorem composes_gained : Composes Gained where
  refl := .refl
  trans first second := (first.trans second fun _ => False.elim).congr fun _ _ => by simp

/-! ### Primitive operations -/

section Always

variable {R : Heap → Heap → Prop} (composes : Composes R)

include composes

theorem always_pure {α : Type} (a : α) : (pure a : HeapM α).Always R := composes.refl

theorem always_read (address length : Nat) : (read address length).Always R := by
  intro h
  by_cases within : h.Accessible address length
  · rw [last_of_ok (read_eq within)]
    exact composes.refl h
  · rw [last_of_error (by rw [read, if_neg within])]
    exact composes.refl h

theorem always_load (address size : Nat) : (load address size).Always R :=
  (always_read composes address size).bind composes.trans fun _ => always_pure composes _

theorem always_loadPointer (address : Nat) : (loadPointer address).Always R :=
  (always_load composes address 8).bind composes.trans fun _ => always_pure composes _

theorem always_readString (address : Nat) : (readString address).Always R := by
  intro h
  have unchanged : (readString address).last h = h := by
    simp only [last, readString]
    split_ifs <;> try rfl
    cases String.fromUTF8? _ <;> rfl
  rw [unchanged]
  exact composes.refl h

theorem always_readError (address : Nat) : (readError address).Always R := by
  refine (always_load composes address 4).bind composes.trans fun domain => ?_
  refine (always_load composes (address + 4) 4).bind composes.trans fun code => ?_
  refine (always_loadPointer composes (address + 8)).bind composes.trans fun text => ?_
  split
  · exact always_pure composes _
  · exact (always_readString composes text).bind composes.trans fun _ => always_pure composes _

variable (writes : ∀ h address bytes, R h (overwritten h address bytes))

include writes

theorem always_write (address : Nat) (bytes : List UInt8) : (write address bytes).Always R := by
  intro h
  by_cases within : h.Accessible address bytes.length
  · rw [last_of_ok (write_eq within)]
    exact writes h address bytes
  · rw [last_of_error (by rw [write, if_neg within])]
    exact composes.refl h

theorem always_store (address size : Nat) (value : Slot) : (store address size value).Always R :=
  always_write composes writes address _

end Always

theorem always_alloc (size align : Nat) : (alloc size align).Always Gained := by
  intro h
  by_cases room : alignUp h.size align + max size 1 ≤ capacity
  · rw [last_of_ok (by rw [alloc, dif_pos room])]
    exact .of_grows (.extend (le_alignUp _ _) (by omega) room) rfl
  · rw [last_of_error (by rw [alloc, dif_neg room])]
    exact .refl h

theorem always_allocBytes (bytes : List UInt8) (align : Nat) :
    (allocBytes bytes align).Always Gained := by
  refine (always_alloc bytes.length align).bind composes_gained.trans fun address => ?_
  refine (always_write composes_gained Revised.overwritten address bytes).bind
    composes_gained.trans fun _ => ?_
  exact always_pure composes_gained address

theorem always_newError (record : ErrorRecord) : (newError record).Always Gained := by
  have stores := always_store composes_gained Revised.overwritten
  refine (always_allocBytes _ 1).bind composes_gained.trans fun message => ?_
  refine (always_alloc errorSize 8).bind composes_gained.trans fun address => ?_
  refine (stores address 4 _).bind composes_gained.trans fun _ => ?_
  refine (stores (address + 4) 4 _).bind composes_gained.trans fun _ => ?_
  refine (stores (address + 8) 8 (.ofNat message)).bind composes_gained.trans fun _ => ?_
  exact always_pure composes_gained address

/-- Nothing is live in `g` that was not in `h`. -/
def Shrinks (h g : Heap) : Prop := ∀ b, g.Live b → h.Live b

theorem composes_shrinks : Composes Shrinks where
  refl _ _ := id
  trans first second b live := first b (second b live)

theorem Shrinks.overwritten (h : Heap) (address : Nat) (bytes : List UInt8) :
    h.Shrinks (h.overwritten address bytes) := fun _ => id

theorem not_isLive_zero : ¬ h.isLive 0 := by
  intro live
  obtain ⟨n, live⟩ := isLive_iff.1 live
  have inside := live.inside
  simp only [guardSize] at inside
  omega

/-- The four ways in which a free can end. -/
theorem free_cases (h : Heap) (p : Nat) :
    (p = 0 ∧ free p h = .ok () h) ∨
    (∃ n g, h.Live ⟨p, n⟩ ∧ free p h = .ok () g ∧ h.Sheds g [⟨p, n⟩] ∧
      ∀ a, a ∈ g.freed ↔ a = p ∨ a ∈ h.freed) ∨
    (p ≠ 0 ∧ ¬ h.isLive p ∧ p ∈ h.freed ∧ free p h = .error (.error (.doubleFree p)) h) ∨
    (p ≠ 0 ∧ ¬ h.isLive p ∧ p ∉ h.freed ∧ free p h = .error (.error (.notAllocated p)) h) := by
  by_cases null : p = 0
  · exact .inl ⟨null, by rw [free, if_pos null]⟩
  by_cases listed : h.live.contains p = true
  · obtain ⟨n, live⟩ := isLive_iff.1 listed
    refine .inr (.inl ⟨n, h.drop p listed, live, ?_, .drop live listed, fun a => ?_⟩)
    · rw [free, if_neg null, dif_pos listed]
    · simp only [drop, Std.TreeSet.mem_insert, Std.LawfulEqCmp.compare_eq_iff_eq]
      rw [eq_comm]
  by_cases gone : p ∈ h.freed
  · refine .inr (.inr (.inl ⟨null, listed, gone, ?_⟩))
    rw [free, if_neg null, dif_neg listed, if_pos (Std.TreeSet.mem_iff_contains.1 gone)]
  · refine .inr (.inr (.inr ⟨null, listed, gone, ?_⟩))
    rw [free, if_neg null, dif_neg listed, if_neg (mt Std.TreeSet.mem_iff_contains.2 gone)]

theorem Revised.of_sheds (sheds : h.Sheds g [b])
    (freed : ∀ a, a ∈ g.freed ↔ a = b.address ∨ a ∈ h.freed) :
    Revised (· = b.address) h g where
  size_le := Nat.le_of_eq sheds.size_eq.symm
  live_iff c old := by
    rw [sheds.live_iff, List.mem_singleton]
    refine ⟨fun kept same => kept.2 ?_, fun other => ⟨old, ?_⟩⟩
    · exact old.eq_of_address (sheds.held b (List.mem_singleton_self b)) same
    · rintro rfl
      exact other rfl
  fresh c still dead := absurd ((sheds.live_iff c).1 still).1 dead
  freed_iff a := by
    have live : h.isLive b.address := isLive_iff.2 ⟨_, sheds.held b (List.mem_singleton_self b)⟩
    rw [freed a, or_comm]
    refine or_congr_right ⟨?_, And.right⟩
    rintro rfl
    exact ⟨live, rfl⟩

theorem revised_free (h : Heap) (p : Nat) : Revised (· = p) h ((free p).last h) := by
  rcases free_cases h p with ⟨rfl, run⟩ | ⟨n, g, -, run, sheds, freed⟩ | ⟨-, dead, -, run⟩ |
    ⟨-, dead, -, run⟩
  · rw [last_of_ok run]
    refine (Revised.refl h).congr fun a live => iff_of_false id ?_
    rintro rfl
    exact not_isLive_zero live
  · rw [last_of_ok run]
    exact .of_sheds sheds freed
  all_goals
    rw [last_of_error run]
    exact (Revised.refl h).congr fun a live => iff_of_false id fun same => dead (same ▸ live)

theorem shrinks_free (p : Nat) : (free p).Always Shrinks := by
  intro h b live
  rcases free_cases h p with ⟨-, run⟩ | ⟨n, g, -, run, sheds, -⟩ | ⟨-, -, -, run⟩ | ⟨-, -, -, run⟩
  · rwa [last_of_ok run] at live
  · rw [last_of_ok run] at live
    exact ((sheds.live_iff b).1 live).1
  all_goals rwa [last_of_error run] at live

theorem shrinks_freeError (address : Nat) : (freeError address).Always Shrinks := by
  have c := composes_shrinks
  unfold freeError
  split
  · exact always_pure c _
  · exact (always_loadPointer c (address + 8)).bind c.trans fun message =>
      (shrinks_free message).bind c.trans fun _ => shrinks_free address

end Heap

namespace HeapOperation

open Heap

variable {h g : Heap} {op : HeapOperation}

/-- The addresses an operation frees, as far as they are those of live blocks. An error record is
freed after its message, and stays when that is neither null nor a live block. -/
def Frees (h : Heap) : HeapOperation → Nat → Prop
  | .free address, a => a = address
  | .freeError address, a =>
    let message := (h.slotAt (address + 8) 8).toNat
    address ≠ 0 ∧ h.Accessible (address + 8) 8 ∧
      (a = message ∨ a = address ∧ (message = 0 ∨ h.isLive message))
  | _, _ => False

theorem revised_freeError (h : Heap) (address : Nat) :
    Revised ((freeError address).Frees h) h ((Heap.freeError address).last h) := by
  by_cases null : address = 0
  · rw [Heap.freeError, if_pos null]
    exact (Revised.refl h).congr fun a _ => by simp [Frees, null]
  rw [Heap.freeError, if_neg null]
  by_cases within : h.Accessible (address + 8) 8
  swap
  · have refused : loadPointer (address + 8) h =
        .error (.error (.invalidPointer (address + 8) 8 h.size)) h := by
      simp only [loadPointer, Heap.load, bind, EStateM.bind, Heap.read, if_neg within]
    rw [last_of_error (bind_of_error refused)]
    exact (Revised.refl h).congr fun a _ => by simp [Frees, within]
  generalize message_eq : (h.slotAt (address + 8) 8).toNat = message
  have begun : (do Heap.free (← loadPointer (address + 8)); Heap.free address : HeapM Unit).last h =
      (Heap.free message >>= fun _ => Heap.free address).last h := by
    simp only [last, bind_of_ok (loadPointer_eq within), message_eq]
  rw [begun]
  have first := revised_free h message
  have stopped : ∀ {e}, Heap.free message h = .error e h → message ≠ 0 → ¬ h.isLive message →
      Revised ((freeError address).Frees h) h
        ((Heap.free message >>= fun _ => Heap.free address).last h) := by
    intro e run nonzero dead
    rw [last_of_error run] at first
    rw [last_of_error (bind_of_error run)]
    exact first.congr fun a _ => by simp [Frees, null, within, message_eq, nonzero, dead]
  have went : ∀ {g}, Heap.free message h = .ok () g → (message = 0 ∨ h.isLive message) →
      (∀ a, g.isLive a → h.isLive a) → Revised ((freeError address).Frees h) h
        ((Heap.free message >>= fun _ => Heap.free address).last h) := by
    intro g run freed old
    rw [last_of_ok run] at first
    have onward : (Heap.free message >>= fun _ => Heap.free address).last h =
        (Heap.free address).last g := by simp only [last, bind_of_ok run]
    rw [onward]
    refine (first.trans (revised_free g address) fun a _ still => old a still).congr fun a _ => ?_
    simp [Frees, null, within, message_eq, freed]
  rcases free_cases h message with ⟨none, run⟩ | ⟨n, g, live, run, sheds, -⟩ |
    ⟨nonzero, dead, -, run⟩ | ⟨nonzero, dead, -, run⟩
  · exact went run (.inl none) fun a live => live
  · refine went run (.inr (isLive_iff.2 ⟨n, live⟩)) fun a still => ?_
    obtain ⟨m, still⟩ := isLive_iff.1 still
    exact isLive_iff.2 ⟨m, ((sheds.live_iff _).1 still).1⟩
  · exact stopped run nonzero dead
  · exact stopped run nonzero dead

theorem apply_eq_last (op : HeapOperation) (h : Heap) : op.apply h = op.run.last h := by
  unfold apply last
  cases op.run h <;> rfl

theorem revised_apply (op : HeapOperation) (h : Heap) : Revised (op.Frees h) h (op.apply h) := by
  rw [apply_eq_last]
  have c := composes_gained
  cases op with
  | alloc size align => exact always_alloc size align h
  | allocBytes bytes align => exact always_allocBytes bytes align h
  | free address => exact revised_free h address
  | read address length => exact always_read c address length h
  | write address bytes => exact always_write c Revised.overwritten address bytes h
  | load address size => exact always_load c address size h
  | store address size value => exact always_store c Revised.overwritten address size value h
  | duplicate text => exact always_allocBytes _ 1 h
  | readString address => exact always_readString c address h
  | copyBlock address size =>
    exact (always_read c address size).bind c.trans (fun bytes => always_allocBytes bytes 8) h
  | newError record => exact always_newError record h
  | readError address => exact always_readError c address h
  | freeError address => exact revised_freeError h address

/-! ### What is asked of the allocator -/

structure Request where
  size : Nat
  align : Nat

/-- The blocks an operation asks for, in order. -/
def requests : HeapOperation → List Request
  | .alloc size align => [⟨size, align⟩]
  | .allocBytes bytes align => [⟨bytes.length, align⟩]
  | .duplicate text => [⟨text.utf8ByteSize + 1, 1⟩]
  | .copyBlock _ size => [⟨size, 8⟩]
  | .newError record => [⟨record.message.utf8ByteSize + 1, 1⟩, ⟨errorSize, 8⟩]
  | _ => []

/-- An operation that asks for no block allocates none. -/
theorem shrinks_apply (quiet : op.requests = []) : h.Shrinks (op.apply h) := by
  rw [apply_eq_last]
  have c := composes_shrinks
  cases op with
  | free address => exact shrinks_free address h
  | read address length => exact always_read c address length h
  | write address bytes => exact always_write c Shrinks.overwritten address bytes h
  | load address size => exact always_load c address size h
  | store address size value => exact always_store c Shrinks.overwritten address size value h
  | readString address => exact always_readString c address h
  | readError address => exact always_readError c address h
  | freeError address => exact shrinks_freeError address h
  | alloc | allocBytes | duplicate | copyBlock | newError => cases quiet

/-- The most bytes of address space that the blocks an operation asks for can take. -/
def demand (op : HeapOperation) : Nat :=
  (op.requests.map fun r => r.align - 1 + max r.size 1).sum

/-- The address an operation that allocates answers with. -/
def address? : (op : HeapOperation) → op.Answer → Option Nat
  | .alloc .., address | .allocBytes .., address | .duplicate .., address | .copyBlock .., address
  | .newError .., address => some address
  | _, _ => none

/-- The block that serves a request when the address space ends at `stop`. -/
def Request.serve (r : Request) (stop : Nat) : Block := ⟨alignUp stop r.align, max r.size 1⟩

/-- The blocks that serve requests, one after the other. -/
def serve : List Request → Nat → List Block
  | [], _ => []
  | r :: rest, stop => r.serve stop :: serve rest (r.serve stop).stop

theorem le_of_mem_serve {requests : List Request} {stop : Nat}
    {b : Block} (listed : b ∈ serve requests stop) : stop ≤ b.address := by
  induction requests generalizing stop with
  | nil => cases listed
  | cons r rest ih =>
    have above : stop ≤ (r.serve stop).address := le_alignUp _ _
    rcases List.mem_cons.1 listed with rfl | later
    · exact above
    · exact Nat.le_trans (Nat.le_trans above (Nat.le_add_right _ _)) (ih later)

theorem serve_ascending (requests : List Request) (stop : Nat) :
    (serve requests stop).Pairwise fun b c => b.stop ≤ c.address := by
  induction requests generalizing stop with
  | nil => exact .nil
  | cons r rest ih => exact .cons (fun c later => le_of_mem_serve later) (ih _)

/-- What a block has in common with the request it serves. -/
structure Request.Fits (r : Request) (b : Block) : Prop where
  size_eq : b.size = max r.size 1
  aligned : ∀ k, r.align = 2 ^ k → r.align ∣ b.address

theorem serve_fits (requests : List Request) (stop : Nat) :
    List.Forall₂ Request.Fits requests (serve requests stop) := by
  induction requests generalizing stop with
  | nil => exact .nil
  | cons r rest ih =>
    refine .cons ⟨rfl, fun k same => ?_⟩ (ih _)
    rw [Request.serve, same]
    exact dvd_alignUp _ k

/-- The action allocates the block that serves the request, unless the address space is too
small. -/
def Grants (x : HeapM Nat) (r : Request) (h : Heap) : Prop :=
  x.Gives h
    (fun a g => a = (r.serve h.size).address ∧ h.Grows g [r.serve h.size] ∧
      g.size = (r.serve h.size).stop)
    (fun _ _ => False) fun _ => capacity < h.size + (r.align - 1 + max r.size 1)

theorem Grants.gives {x : HeapM Nat} {r : Request} (grants : Grants x r h) {ok : Nat → Heap → Prop}
    {failed : HeapFault → Heap → Prop}
    (done : ∀ g, h.Grows g [r.serve h.size] → ok (r.serve h.size).address g) :
    x.Gives h ok failed fun _ => capacity < h.size + (r.align - 1 + max r.size 1) := by
  refine Gives.mono grants ?_ fun _ _ => False.elim
  rintro a g ⟨rfl, grows, -⟩
  exact done g grows

theorem grants_alloc (r : Request) : Grants (Heap.alloc r.size r.align) r h := by
  have near := alignUp_le h.size r.align
  by_cases room : alignUp h.size r.align + max r.size 1 ≤ capacity
  · have run : Heap.alloc r.size r.align h = .ok (r.serve h.size).address
        (h.extend _ _ (le_alignUp h.size r.align) (by omega) room) := by
      rw [Heap.alloc, dif_pos room]
      rfl
    exact gives_of_ok run ⟨rfl, .extend _ _ _, size_extend _ _ _⟩
  · simp only [Grants, Gives, Heap.alloc, dif_neg room]
    omega

theorem grants_allocBytes (bytes : List UInt8) (align : Nat) :
    Grants (Heap.allocBytes bytes align) ⟨bytes.length, align⟩ h := by
  rw [Grants, Heap.allocBytes, gives_bind]
  refine (grants_alloc ⟨bytes.length, align⟩).mono ?_ fun _ _ never => never
  rintro a g ⟨rfl, grows, size_eq⟩
  have within := (grows.live (List.mem_singleton_self _)).accessible_start
    (Nat.le_max_left bytes.length 1)
  rw [gives_bind]
  exact gives_of_ok (write_eq within)
    ⟨rfl, grows.overwritten within (le_alignUp _ _), by rw [size_overwritten, size_eq]⟩

theorem grants_duplicate (text : String) :
    Grants (Heap.duplicate text) ⟨text.utf8ByteSize + 1, 1⟩ h := by
  have length : (text.toUTF8.data.toList ++ [0]).length = text.utf8ByteSize + 1 := by
    rw [List.length_append, Array.length_toList]
    exact congrArg (· + 1) String.size_toByteArray
  have copied := grants_allocBytes (h := h) (text.toUTF8.data.toList ++ [0]) 1
  rwa [length] at copied

/-- The operation allocated exactly the blocks it asked for. -/
structure Serves (op : HeapOperation) (h : Heap) (answer : op.Answer) (g : Heap) : Prop where
  grows : h.Grows g (serve op.requests h.size)
  answered : op.address? answer = (serve op.requests h.size).getLast?.map Block.address

theorem newError_serves (record : ErrorRecord) :
    (newError record).run.Gives h ((newError record).Serves h) (fun _ _ => False)
      fun _ => capacity < h.size + (newError record).demand := by
  simp only [run, demand, requests, List.map_cons, List.map_nil, List.sum_cons, List.sum_nil]
  rw [Heap.newError, gives_bind]
  refine ((grants_duplicate record.message).mono ?_ fun _ _ never => never).mono_halted
    fun _ full => by
      simp only at full
      omega
  rintro message g ⟨rfl, grows, size_eq⟩
  rw [gives_bind]
  refine ((grants_alloc ⟨errorSize, 8⟩).mono ?_ fun _ _ never => never).mono_halted
    fun _ full => ?_
  · rintro address k ⟨rfl, more, -⟩
    have within : k.Accessible _ errorSize :=
      (more.live (List.mem_singleton_self _)).accessible_start (Nat.le_max_left _ _)
    have whole : h.Grows k (serve (newError record).requests h.size) := by
      simpa only [serve, requests, size_eq, List.singleton_append] using grows.trans more
    refine gives_of_ok (store_fields within) ⟨whole.recorded within ?_, ?_⟩
    · exact Nat.le_trans grows.size_le (le_alignUp _ _)
    · simp only [address?, serve, requests, List.getLast?_cons_cons, List.getLast?_singleton,
        Option.map_some, size_eq]
  · have first := alignUp_le h.size 1
    simp only [size_eq, Block.stop, Request.serve] at full
    omega

/-- An operation that asks for blocks gets them, unless it copies what cannot be read or the address
space is too small. -/
theorem run_serves (asks : op.requests ≠ []) :
    op.run.Gives h (op.Serves h)
      (fun _ g => ∃ source size, op = .copyBlock source size ∧ ¬ h.Accessible source size ∧ g = h)
      fun _ => capacity < h.size + op.demand := by
  cases op with
  | alloc size align => exact (grants_alloc ⟨size, align⟩).gives fun g grows => ⟨grows, rfl⟩
  | allocBytes bytes align => exact (grants_allocBytes bytes align).gives fun g grows => ⟨grows, rfl⟩
  | duplicate text => exact (grants_duplicate text).gives fun g grows => ⟨grows, rfl⟩
  | copyBlock source size =>
    rw [run, Heap.copyBlock, gives_bind]
    by_cases within : h.Accessible source size
    · have copied := grants_allocBytes (h := h) (h.slice source size) 8
      rw [length_slice] at copied
      exact gives_of_ok (read_eq within) (copied.gives fun g grows => ⟨grows, rfl⟩)
    · simpa only [Gives, Heap.read, if_neg within] using ⟨source, size, rfl, within, trivial⟩
  | newError record => exact (newError_serves record).mono (fun _ _ => id) fun _ _ => False.elim
  | free | read | write | load | store | readString | readError | freeError =>
    exact absurd rfl asks

end HeapOperation

namespace Heap

open HeapOperation

variable {history : List HeapOperation} {b c : Block} {op : HeapOperation}

/-! ### Histories -/

@[simp] theorem after_append (h : Heap) (history later : List HeapOperation) :
    h.after (history ++ later) = (h.after history).after later := List.foldl_append

@[simp] theorem after_singleton (h : Heap) (op : HeapOperation) : h.after [op] = op.apply h := rfl

/-- The block was live at some point of the history. -/
def Handed (history : List HeapOperation) (b : Block) : Prop :=
  ∃ earlier, earlier <+: history ∧ (empty.after earlier).Live b

/-- An operation of the history freed the block. -/
def Freed (history : List HeapOperation) (b : Block) : Prop :=
  ∃ earlier op, earlier ++ [op] <+: history ∧ (empty.after earlier).Live b ∧
    op.Frees (empty.after earlier) b.address

theorem Freed.handed (freed : Freed history b) : Handed history b := by
  obtain ⟨earlier, op, before, live, -⟩ := freed
  exact ⟨earlier, (List.prefix_append _ _).trans before, live⟩

theorem handed_append : Handed (history ++ [op]) b ↔
    Handed history b ∨ (empty.after (history ++ [op])).Live b := by
  simp only [Handed, List.prefix_concat_iff]
  constructor
  · rintro ⟨earlier, rfl | before, live⟩
    · exact .inr live
    · exact .inl ⟨earlier, before, live⟩
  · rintro (⟨earlier, before, live⟩ | live)
    · exact ⟨earlier, .inr before, live⟩
    · exact ⟨_, .inl rfl, live⟩

theorem freed_append : Freed (history ++ [op]) b ↔
    Freed history b ∨ (empty.after history).Live b ∧ op.Frees (empty.after history) b.address := by
  simp only [Freed, List.prefix_concat_iff]
  constructor
  · rintro ⟨earlier, last, same | before, live, frees⟩
    · obtain ⟨rfl, ends⟩ := List.append_inj' same rfl
      rw [List.singleton_inj.1 ends] at frees
      exact .inr ⟨live, frees⟩
    · exact .inl ⟨earlier, last, before, live, frees⟩
  · rintro (⟨earlier, last, before, live, frees⟩ | ⟨live, frees⟩)
    · exact ⟨earlier, last, .inr before, live, frees⟩
    · exact ⟨history, op, .inl rfl, live, frees⟩

/-- What a heap keeps track of is what its history did. -/
structure Follows (history : List HeapOperation) (h : Heap) : Prop where
  handed_inside : ∀ b, Handed history b → guardSize ≤ b.address ∧ 0 < b.size ∧ b.stop ≤ h.size
  live_iff : ∀ b, h.Live b ↔ Handed history b ∧ ¬ Freed history b
  freed_iff : ∀ a, a ∈ h.freed ↔ ∃ n, Freed history ⟨a, n⟩
  apart : ∀ b c, Handed history b → Handed history c → b ≠ c →
    b.stop ≤ c.address ∨ c.stop ≤ b.address

theorem follows_nil : Follows [] empty := by
  have bare : ∀ b, ¬ empty.Live b := by
    intro b live
    simp [Live, blockSize?, empty] at live
  have none : ∀ b, ¬ Handed [] b := by
    rintro b ⟨earlier, before, live⟩
    rw [List.prefix_nil.1 before] at live
    exact bare b live
  have kept : ∀ b, ¬ Freed [] b := by
    rintro b ⟨earlier, op, before, -, -⟩
    simp at before
  refine ⟨fun b handed => absurd handed (none b), fun b => ?_, fun a => ?_,
    fun b c handed => absurd handed (none b)⟩
  · simp [bare, none]
  · simp [kept, empty]

theorem Follows.step (follows : Follows history (empty.after history)) (op : HeapOperation) :
    Follows (history ++ [op]) (empty.after (history ++ [op])) := by
  have revised := revised_apply op (empty.after history)
  rw [← after_singleton, ← after_append] at revised
  -- A block that was handed out before and is not live any more lies below everything new.
  have stays : ∀ b, Handed history b → (empty.after (history ++ [op])).Live b →
      (empty.after history).Live b := by
    intro b handed again
    by_contra dead
    have inside := follows.handed_inside b handed
    have above := revised.fresh b again dead
    simp only [Block.stop] at inside
    omega
  have handed_inside : ∀ b, Handed history b → guardSize ≤ b.address ∧ 0 < b.size ∧
      b.stop ≤ (empty.after (history ++ [op])).size := by
    intro b handed
    have inside := follows.handed_inside b handed
    exact ⟨inside.1, inside.2.1, Nat.le_trans inside.2.2 revised.size_le⟩
  have beyond : ∀ b c, Handed history b → (empty.after (history ++ [op])).Live c → b ≠ c →
      b.stop ≤ c.address ∨ c.stop ≤ b.address := by
    intro b c handed live other
    by_cases old : Handed history c
    · exact follows.apart b c handed old other
    · have dead : ¬ (empty.after history).Live c := fun live => old ((follows.live_iff c).1 live).1
      have inside := follows.handed_inside b handed
      exact .inl (Nat.le_trans inside.2.2 (revised.fresh c live dead))
  refine ⟨fun b handed => ?_, fun b => ?_, fun a => ?_, fun b c first second other => ?_⟩
  · rcases handed_append.1 handed with old | live
    · exact handed_inside b old
    · exact live.inside
  · rw [handed_append, freed_append]
    constructor
    · intro live
      refine ⟨.inr live, ?_⟩
      rintro (gone | ⟨old, frees⟩)
      · exact ((follows.live_iff b).1 (stays b gone.handed live)).2 gone
      · exact (revised.live_iff b old).1 live frees
    · rintro ⟨old | live, kept⟩
      · have live := (follows.live_iff b).2 ⟨old, fun gone => kept (.inl gone)⟩
        exact (revised.live_iff b live).2 fun frees => kept (.inr ⟨live, frees⟩)
      · exact live
  · rw [revised.freed_iff, follows.freed_iff, isLive_iff]
    simp only [freed_append, exists_or, exists_and_right]
  · rcases handed_append.1 first with old | live <;> rcases handed_append.1 second with old' | live'
    · exact follows.apart b c old old' other
    · exact beyond b c old live' other
    · exact (beyond c b old' live other.symm).symm
    · exact live.apart live' other

theorem follows_after (history : List HeapOperation) : Follows history (empty.after history) := by
  induction history using List.reverseRecOn with
  | nil => exact follows_nil
  | append_singleton history op ih => exact ih.step op

/-! ### The account of a history -/

/-- The blocks are what an operation after the history asked for: new ones, of the sizes and
alignments it asked for, beyond all that was ever handed out, the last one at the address it answers
with. -/
structure Allocates (history : List HeapOperation) (op : HeapOperation) (answer : op.Answer)
    (blocks : List Block) : Prop where
  fits : List.Forall₂ Request.Fits op.requests blocks
  answered : op.address? answer = blocks.getLast?.map Block.address
  guarded : ∀ b ∈ blocks, guardSize ≤ b.address
  beyond : ∀ b ∈ blocks, ∀ c, Handed history c → c.stop ≤ b.address
  ascending : blocks.Pairwise fun b c => b.stop ≤ c.address
  inside : ∀ b ∈ blocks, b.stop ≤ capacity
  handed_iff : ∀ b, Handed (history ++ [op]) b ↔ Handed history b ∨ b ∈ blocks

theorem allocates_after (history : List HeapOperation) (asks : op.requests ≠ []) :
    op.run.Gives (empty.after history) (fun answer _ => ∃ blocks, Allocates history op answer blocks)
      (fun _ g => ∃ source size, op = .copyBlock source size ∧
        ¬ (empty.after history).Accessible source size ∧ g = empty.after history)
      fun _ => capacity < (empty.after history).size + op.demand := by
  have follows := follows_after history
  refine ((run_serves asks).both (gives_self _ _)).mono ?_ fun _ _ failed => failed.1
  rintro answer g ⟨⟨grows, answered⟩, run⟩
  have last_eq : empty.after (history ++ [op]) = g := by
    rw [after_append, after_singleton, apply_eq_last, last_of_ok run]
  refine ⟨_, serve_fits _ _, answered, fun b new => (grows.live new).inside.1, fun b new c old => ?_,
    serve_ascending _ _, fun b new => ?_, fun b => ?_⟩
  · exact Nat.le_trans (follows.handed_inside c old).2.2 (le_of_mem_serve new)
  · exact Nat.le_trans (grows.live new).inside.2.2 g.size_le_capacity
  · rw [handed_append, last_eq, grows.live_iff]
    constructor
    · rintro (handed | old | new)
      · exact .inl handed
      · exact .inl ((follows.live_iff b).1 old).1
      · exact .inr new
    · rintro (handed | new)
      · exact .inl handed
      · exact .inr (.inr new)

/-- How a free after the history ends. -/
structure Tells (history : List HeapOperation) (p : Nat) : Prop where
  ok_iff : (∃ g, free p (empty.after history) = .ok () g) ↔
    p = 0 ∨ ∃ n, Handed history ⟨p, n⟩ ∧ ¬ Freed history ⟨p, n⟩
  doubleFree_iff : free p (empty.after history) =
      .error (.error (.doubleFree p)) (empty.after history) ↔ ∃ n, Freed history ⟨p, n⟩
  notAllocated_iff : free p (empty.after history) =
      .error (.error (.notAllocated p)) (empty.after history) ↔
    p ≠ 0 ∧ ∀ n, ¬ Handed history ⟨p, n⟩

theorem tells_after (history : List HeapOperation) (p : Nat) : Tells history p := by
  have follows := follows_after history
  generalize h_eq : empty.after history = h at follows
  have live_iff : (∃ n, Handed history ⟨p, n⟩ ∧ ¬ Freed history ⟨p, n⟩) ↔ h.isLive p := by
    simp only [isLive_iff, follows.live_iff]
  have freed_iff := follows.freed_iff p
  have handed_iff : (∀ n, ¬ Handed history ⟨p, n⟩) ↔ ¬ h.isLive p ∧ p ∉ h.freed := by
    rw [← live_iff, freed_iff]
    constructor
    · exact fun none => ⟨fun ⟨n, handed, _⟩ => none n handed, fun ⟨n, freed⟩ => none n freed.handed⟩
    · rintro ⟨dead, kept⟩ n handed
      exact dead ⟨n, handed, fun freed => kept ⟨n, freed⟩⟩
  suffices told : ((∃ g, free p h = .ok () g) ↔ p = 0 ∨ h.isLive p) ∧
      (free p h = .error (.error (.doubleFree p)) h ↔ p ∈ h.freed) ∧
      (free p h = .error (.error (.notAllocated p)) h ↔ p ≠ 0 ∧ ¬ h.isLive p ∧ p ∉ h.freed) by
    subst h_eq
    exact ⟨told.1.trans (or_congr_right live_iff.symm), told.2.1.trans freed_iff,
      told.2.2.trans (and_congr_right fun _ => handed_iff.symm)⟩
  rcases free_cases h p with ⟨rfl, run⟩ | ⟨n, g, live, run, -, -⟩ | ⟨nonzero, dead, gone, run⟩ |
    ⟨nonzero, dead, kept, run⟩
  · have kept : 0 ∉ h.freed := fun gone => absurd (h.freed_inside 0 gone).1 (by decide)
    simp [run, kept]
  · have listed : h.isLive p := isLive_iff.2 ⟨n, live⟩
    have kept : p ∉ h.freed := fun gone => by
      have none := (h.freed_inside p gone).2.2
      rw [Live, blockSize?, none] at live
      cases live
    simp [run, listed, kept]
  · simp [run, nonzero, dead, gone]
  · simp [run, nonzero, dead, kept]

/-- What the blocks of a heap are after a history. -/
structure Tracked (history : List HeapOperation) : Prop where
  live_iff : ∀ b, (empty.after history).Live b ↔ Handed history b ∧ ¬ Freed history b
  apart : ∀ b c, Handed history b → Handed history c → b ≠ c →
    b.stop ≤ c.address ∨ c.stop ≤ b.address
  allocates : ∀ op : HeapOperation, op.requests ≠ [] →
    op.run.Gives (empty.after history) (fun answer _ => ∃ blocks, Allocates history op answer blocks)
      (fun _ g => ∃ source size, op = .copyBlock source size ∧
        ¬ (empty.after history).Accessible source size ∧ g = empty.after history)
      fun _ => capacity < (empty.after history).size + op.demand
  nothing_else : ∀ op : HeapOperation, op.requests = [] → ∀ b,
    Handed (history ++ [op]) b ↔ Handed history b
  tells : ∀ p, Tells history p

theorem history_tracked (history : List HeapOperation) : Tracked history where
  live_iff := (follows_after history).live_iff
  apart := (follows_after history).apart
  allocates _ asks := allocates_after history asks
  nothing_else op quiet b := by
    rw [handed_append, after_append, after_singleton, or_iff_left_iff_imp]
    exact fun live => (((follows_after history).live_iff b).1 (shrinks_apply quiet b live)).1
  tells := tells_after history

end Heap

end ForeignCall
