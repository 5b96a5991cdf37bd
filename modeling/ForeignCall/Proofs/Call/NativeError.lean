import ForeignCall.Proofs.Call.Nesting
import ForeignCall.Proofs.Call.Unwinding
import ForeignCall.Proofs.Ownership.Errors

/-!
Calls whose native function reports an error.

The error is read and freed, the outputs are discarded, and the call releases what it made for itself.
So of what was live when the function returned, exactly that stays which belongs to nobody: neither to
the error, nor to the call, nor to an output that was handed over.
-/

set_option autoImplicit false

namespace ForeignCall

open ForeignCall.Action

/-! ### The error -/

/-- The cell holds an error that was recorded in `blocks`, and nothing was changed of these since. -/
def Heap.Reports (v : Heap) (cell : Nat) (record : ErrorRecord) (blocks : List Block) : Prop :=
  ∃ h g address, newError record h = .ok address g ∧ h.Grows g blocks ∧ g.Agrees v blocks ∧
    loadPointer cell v = .ok address v

/-- The blocks that a heap gained are the same however they are listed. -/
theorem Heap.Grows.perm_of_grows {h g : Heap} {blocks more : List Block} (grows : h.Grows g blocks)
    (grows' : h.Grows g more) : blocks.Perm more := by
  refine (List.perm_ext_iff_of_nodup grows.nodup grows'.nodup).2 fun b => ⟨fun new => ?_, fun new => ?_⟩
  · exact ((grows'.live_iff b).1 (grows.live new)).resolve_left (grows.not_live new)
  · exact ((grows.live_iff b).1 (grows'.live new)).resolve_left (grows'.not_live new)

theorem Heap.Agrees.perm {h g : Heap} {blocks more : List Block} (same : h.Agrees g blocks)
    (perm : blocks.Perm more) : h.Agrees g more := same.subset perm.symm.subset

/-- An error that was recorded is read as it was recorded, and freeing it frees its blocks. -/
theorem Heap.Reports.reads {v : Heap} {cell : Nat} {record : ErrorRecord} {blocks : List Block}
    (reports : v.Reports cell record blocks) (clean : '\x00' ∉ record.message.toList)
    (keeps : v.Keeps blocks) :
    ∃ address k, address ≠ 0 ∧ loadPointer cell v = .ok address v ∧
      readError address v = .ok record v ∧ freeError address v = .ok () k ∧ v.Sheds k blocks := by
  obtain ⟨h, g, address, made, grows, same, loaded⟩ := reports
  obtain ⟨b, text, rfl, grows', records⟩ := (gives_newError record h).of_ok made
  have perm := grows.perm_of_grows grows'
  have records := records.agree (same.perm perm)
  obtain ⟨k, freed, sheds⟩ := records.error.freeError (keeps.perm perm)
  have guarded := records.error.guarded
  simp only [guardSize] at guarded
  exact ⟨b.address, k, by omega, loaded, records.readError clean, freed, sheds.perm perm.symm⟩

namespace Native

variable {σ : Type} {callback : Nat → List Slot → SessionM σ Slot} {s : Session σ}
  {ok : Slot → Session σ → Prop} {failed : CallError → Session σ → Prop}

end Native
namespace FrameM

variable {plan : Plan} {ret : Slot} {s : Scratch}

end FrameM

/-- Unwinding discards the outputs, which succeeds, and then comes the release at the end. -/
theorem FrameM.unwind_discards {plan : Plan} {m₀ m v : Memory} {f : Frame} {ret : Slot}
    {outs : List Output} {owed : Nat → List Block} {rest : List Block}
    (left : Unwindable plan m₀ m v f ret outs owed rest) (formed : f.Formed plan) {g : Heap}
    (sheds : v.heap.Sheds g rest) {p : Option CallError} {ends : Scratch → Prop}
    {halted : Halt → Prop}
    (releases : ∀ u, v.heap.Sheds u.memory.heap (rest ++ outs.flatMap Output.handed) →
      Scratch.Hands ⟨f, v⟩ u (outs.flatMap Output.lent) →
        (releaseAll plan).Gives u (fun _ t => ends t) (fun _ t => ends t) halted) :
    (unwind plan ret).Gives ⟨f, { v with heap := g, pending := p }⟩
      (fun discarded t => discarded = .ok () ∧ ends t) (fun _ _ => False) halted := by
  have drained : Scratch.Hands ⟨f, v⟩ ⟨f, { v with heap := g, pending := p }⟩ [] :=
    .of_memory { v with heap := g, pending := p } f.outputs rfl sheds.prolongs
  rw [unwind, gives_bind, gives_attempt]
  refine (left.delivers.discards (n := 0) formed (Nat.zero_le _) drained
    (left.keeps.right sheds).left).mono ?_ fun _ _ never => never.elim
  rintro _ u ⟨discards, hands⟩
  rw [List.drop_zero] at discards
  rw [gives_bind, gives_attempt]
  exact (releases u (sheds.trans discards) hands).mono (fun _ _ ended => ⟨rfl, ended⟩)
    fun _ _ ended => ⟨rfl, ended⟩

def failure : ErrorRecord := ⟨7, -3, "failed"⟩

end ForeignCall
