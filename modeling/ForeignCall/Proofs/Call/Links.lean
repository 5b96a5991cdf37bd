import ForeignCall.Proofs.Call.Slots

/-!
Linked arguments: array lengths, user data and destroy notifiers.

The count of an array and the address of a callback reach the native function in the argument they
are linked to, unless a later input is linked to the same argument.
-/

set_option autoImplicit false

namespace ForeignCall

/-- What the native function finds in linked arguments. The length of an array is the count of the
last array linked to that argument, and the user data of a callback is the address of the callback
itself where the last token for that argument is. An argument that is linked to one input only
carries what belongs to that input. -/
theorem linked_arguments_carry_last {env : Environment} {c : CallableRecord} {plan : Plan}
    {receiver : Option Nat} {arguments : List Value} {m : Memory} {slots : List Slot} {t : Scratch}
    (derived : Plan.derive env.repository c = .ok plan)
    (ran : FrameM.nativeSlots env plan receiver arguments ⟨.start plan.parameters.length, m⟩ =
      .ok slots t) :
    List.Forall₂ (Lowered.From plan) t.frame.inputs (pairInputs plan.inputs arguments) ∧
    (∀ x ∈ t.frame.inputs, ∀ p length q format pointer,
      plan.parameters[x.position]? = some p → p.role = .array length →
      plan.parameters[length]? = some q → q.direction = .input →
      q.type = .basic (.integer format) pointer →
      let found := (nativeArgument receiver slots length).asInt format.width.bits format.signed
      ∃ count last, x.count = some count ∧ plan.lastCount length t.frame.inputs = some last ∧
        found = format.arriving last ∧
        (last < 2 ^ 53 → format.Holds last → (found = count ↔ last = count)) ∧
        (plan.OnlyLinked length x t.frame.inputs → last = count)) ∧
    (∀ x ∈ t.frame.inputs, ∀ p closure destroy q,
      plan.parameters[x.position]? = some p → p.role = .callback (some closure) destroy →
      p.direction = .input → plan.parameters[closure]? = some q → q.direction = .input →
      nativeArgument receiver slots x.position = x.slot ∧
      (nativeArgument receiver slots closure = x.slot ↔
        match plan.lastCount closure t.frame.inputs with
        | some count => q.type.numberSlot (.ofNat count) = x.slot
        | none => plan.lastToken closure t.frame.inputs = some x.slot) ∧
      (plan.OnlyLinked closure x t.frame.inputs → destroy ≠ some closure →
        nativeArgument receiver slots closure = x.slot)) := by
  have wired := Plan.wired_of_derive derived
  obtain ⟨taken, direct, hidden⟩ := (FrameM.nativeSlots_served wired).of_ok ran
  refine ⟨taken, ?_, ?_⟩
  · intro x listed p length q format pointer found role linked input type arrives
    obtain ⟨given, member, source, took⟩ := exists_of_forall₂ taken listed
    cases found.symm.trans source
    have packed := took.array length role
    obtain ⟨_, q', linked', skip⟩ := wired.array given.1 (List.mem_of_getElem? found) length role
    cases linked.symm.trans linked'
    obtain ⟨last, lastly, sole⟩ := Plan.exists_lastCount listed found role packed
    have arrived : arrives = format.arriving last := by
      simp only [arrives, hidden length q linked skip input, Plan.hiddenSlot, lastly, type]
      rfl
    refine ⟨given.2.itemCount, last, packed, lastly, arrived, fun small fits => ?_, sole⟩
    rw [arrived, IntFormat.arriving_of_holds small fits]
    exact Int.ofNat_inj
  · intro x listed p closure destroy q found role given linked input
    obtain ⟨_, hides⟩ := wired.callback p (List.mem_of_getElem? found) _ _ role
    obtain ⟨q', linked', skip⟩ := hides closure (by simp)
    cases linked.symm.trans linked'
    obtain ⟨token, lastly, sole⟩ := Plan.exists_lastToken listed found role
    refine ⟨direct x listed p found given, ?_, fun only apart => ?_⟩
    · rw [hidden closure q linked skip input, Plan.hiddenSlot, lastly]
      cases plan.lastCount closure t.frame.inputs with
      | some count => rfl
      | none => exact Option.some_inj.symm
    · rw [hidden closure q linked skip input, Plan.hiddenSlot,
        Plan.lastCount_of_only found role only]
      dsimp only
      rw [lastly, Option.getD_some, sole only apart]

theorem linked_arguments_carry_last_pair :
    let run : EntryRecord :=
      { namespaceName := "T", name := "Run", kind := .callback
        signature := some { namespaceName := "T", name := "Run" } }
    let env : Environment := ⟨.insertEntry .initial run, .pin⟩
    let c : CallableRecord :=
      { namespaceName := "T", name := "f"
        arguments := [
          { name := "names", type := TypeRecord.utf8.cArray.withLength 1 },
          { name := "count", type := { tag := .integer ⟨.w32, true⟩ } },
          { name := "run", type := .named "T.Run", closure := some 3 },
          { name := "data", type := .anyPointer }] }
    let plan := (Plan.derive env.repository c).toOption.getD default
    let arguments : List Value := [.array [.string "a", .string "b"], .function ⟨0⟩]
    Plan.derive env.repository c = .ok plan ∧
      ∃ slots t, FrameM.nativeSlots env plan none arguments
          ⟨.start plan.parameters.length, .empty⟩ = .ok slots t ∧
        (∃ x ∈ t.frame.inputs, x.count.map (IntFormat.arriving ⟨.w32, true⟩) =
          some ((nativeArgument none slots 1).asInt 32 true)) ∧
        ∃ x ∈ t.frame.inputs, nativeArgument none slots 2 = x.slot ∧
          nativeArgument none slots 3 = x.slot := by
  intro run env c plan arguments
  have derived : Plan.derive env.repository c = .ok plan := by decide +kernel
  obtain ⟨slots, t, ran, positions⟩ :=
    Action.exists_ok_such (x := FrameM.nativeSlots env plan none arguments)
      (s := ⟨.start plan.parameters.length, .empty⟩)
      (fun _ t => t.frame.inputs.map (·.position) == [0, 2]) (by decide +kernel)
  obtain ⟨-, counts, tokens⟩ := linked_arguments_carry_last derived ran
  obtain ⟨x, y, inputs, first, second⟩ :
      ∃ x y, t.frame.inputs = [x, y] ∧ x.position = 0 ∧ y.position = 2 := by
    simp only [beq_iff_eq, List.map_eq_cons_iff, List.map_eq_nil_iff] at positions
    obtain ⟨x, _, inputs, first, y, _, rfl, second, rfl⟩ := positions
    exact ⟨x, y, inputs, first, second⟩
  rw [inputs] at counts tokens
  have array : ∃ p, plan.parameters[x.position]? = some p ∧ p.role = .array 1 := by
    rw [first]
    exact ⟨(plan.parameters[0]?).getD default, by decide +kernel⟩
  have callback : ∃ p, plan.parameters[y.position]? = some p ∧
      p.role = .callback (some 3) none ∧ p.direction = .input := by
    rw [second]
    exact ⟨(plan.parameters[2]?).getD default, by decide +kernel⟩
  obtain ⟨p, source, role⟩ := array
  obtain ⟨q, source', role', given⟩ := callback
  obtain ⟨count, last, packed, -, arrives, -, only⟩ :=
    counts x (by simp) p 1 ((plan.parameters[1]?).getD default) ⟨.w32, true⟩ false source role
      (by decide +kernel) (by decide +kernel) (by decide +kernel)
  obtain ⟨passed, -, only'⟩ :=
    tokens y (by simp) q 3 none ((plan.parameters[3]?).getD default) source' role' given
      (by decide +kernel) (by decide +kernel)
  refine ⟨derived, slots, t, ran, ⟨x, by simp [inputs], ?_⟩, y, by simp [inputs], ?_,
    only' ?_ (by simp)⟩
  · rw [packed, Option.map_some]
    refine congrArg some (arrives.trans (congrArg _ (only ?_))).symm
    intro z listed r found linked
    simp only [List.mem_cons, List.not_mem_nil, or_false] at listed
    rcases listed with rfl | rfl
    · rfl
    · cases found.symm.trans source'
      simp [Parameter.LinksTo, role'] at linked
  · rw [← second]
    exact passed
  · intro z listed r found linked
    simp only [List.mem_cons, List.not_mem_nil, or_false] at listed
    rcases listed with rfl | rfl
    · cases found.symm.trans source
      simp [Parameter.LinksTo, role] at linked
    · rfl

/-- Two callbacks that are linked to one argument, one by its user data and the other by its destroy
notifier. The first is entered without its user data. -/
theorem linked_arguments_clash :
    let run : EntryRecord :=
      { namespaceName := "T", name := "Run", kind := .callback
        signature := some { namespaceName := "T", name := "Run" } }
    let env : Environment := ⟨.insertEntry .initial run, .pin⟩
    let c : CallableRecord :=
      { namespaceName := "T", name := "f"
        arguments := [
          { name := "first", type := .named "T.Run", closure := some 2 },
          { name := "second", type := .named "T.Run", closure := some 3, destroy := some 2 },
          { name := "x", type := .anyPointer }, { name := "y", type := .anyPointer }] }
    let plan := (Plan.derive env.repository c).toOption.getD default
    let arguments : List Value := [.function ⟨0⟩, .function ⟨1⟩]
    Plan.derive env.repository c = .ok plan ∧
      checkArguments env.repository plan arguments = .ok () ∧
      ∃ slots t, FrameM.nativeSlots env plan none arguments
          ⟨.start plan.parameters.length, .empty⟩ = .ok slots t ∧
        nativeArgument none slots 2 ≠ nativeArgument none slots 0 := by
  intro run env c plan arguments
  obtain ⟨slots, t, ran, differ⟩ :=
    Action.exists_ok_such (x := FrameM.nativeSlots env plan none arguments)
      (s := ⟨.start plan.parameters.length, .empty⟩)
      (fun slots _ => nativeArgument none slots 2 != nativeArgument none slots 0)
      (by decide +kernel)
  exact ⟨by decide +kernel, by decide +kernel, slots, t, ran, by simpa using differ⟩

end ForeignCall
