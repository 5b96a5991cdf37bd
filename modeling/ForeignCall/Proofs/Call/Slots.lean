import ForeignCall.Proofs.Call.Frame
import ForeignCall.Proofs.Call.LinkValues
import ForeignCall.Proofs.Call.Plan
import ForeignCall.Proofs.Conversion.Steps

/-!
The slots that the two passes over the parameters fill.

The first pass keeps the frame in step with its inputs: counts and tokens are those that the inputs
leave, and an input that is not passed by reference is in its slot. The second pass takes the rest
from there.
-/

set_option autoImplicit false

namespace ForeignCall

section Conversions

variable {env : Environment} {d : Descriptor} {v : Value} {nullable : Bool} {m : Memory}

theorem gives_lowerInteger_number {n : Number} {width : Nat} {slot : Slot}
    (same : slot = .ofNat (n.truncate width)) :
    (lowerInteger d (.number n) width).Gives m (fun found m' => found = slot ∧ m' = m)
      (fun _ m' => m' = m) fun _ => True := by
  rw [lowerInteger, Action.gives_bind]
  refine gives_expectNumber (fun n' found => ?_) fun _ => rfl
  cases found
  exact ⟨same.symm, rfl⟩

theorem lower_number {n : Number} :
    (lower env d (.number n) nullable).Gives m (fun slot m' => slot = d.numberSlot n ∧ m' = m)
      (fun _ m' => m' = m) fun _ => True := by
  unfold lower
  rw [if_neg (by simp [Value.isNullish])]
  split
  case h_1 => exact ⟨rfl, rfl⟩
  case h_2 => exact gives_lowerInteger_number rfl
  case h_3 | h_4 =>
    rw [Action.gives_bind]
    refine gives_expectNumber (fun n' found => ?_) fun _ => rfl
    cases found
    exact ⟨rfl, rfl⟩
  case h_5 => exact gives_lowerInteger_number rfl
  case h_6 => exact gives_lowerInteger_number rfl
  case h_7 => exact ⟨rfl, rfl⟩
  case h_9 | h_10 =>
    rw [Action.gives_bind]
    exact gives_expectInstance (fun w found => by cases found) fun _ => rfl
  case h_11 =>
    unfold lowerCallback
    rw [if_neg (by simp [Value.isNullish])]
    rfl
  case h_12 =>
    unfold packArray
    rw [Action.gives_bind, if_neg (by simp [Value.isNullish])]
    rfl
  case h_14 pointer =>
    cases pointer with
    | true => exact ⟨rfl, rfl⟩
    | false => rfl
  all_goals rfl

theorem lowerArray_count :
    (lowerArray env d v nullable).Gives m (fun packed _ => packed.2 = v.itemCount)
      (fun _ _ => True) fun _ => True := by
  unfold lowerArray
  split
  · refine gives_packArray (fun missing => ?_) (fun _ => trivial) trivial ?_
    · cases v <;> first | rfl | cases missing
    · rintro items rfl - start after positive room
      exact (Action.gives_anyhow _ _).mono (fun _ _ _ => rfl) fun _ _ _ => trivial
  · trivial

theorem lowerCallback_nullish {release : Release} (nullish : v.isNullish = true) :
    (lowerCallback env d v nullable release).Gives m (fun slot _ => slot = .null)
      (fun _ _ => True) fun _ => True := by
  unfold lowerCallback
  split
  · rfl
  · split
    · cases nullish
    · trivial

end Conversions

structure Frame.Fills (f g : Frame) (position : Nat) : Prop where
  inputs : g.inputs = f.inputs
  counts : g.counts = f.counts
  tokens : g.tokens = f.tokens
  length : g.slots.length = f.slots.length
  others : ∀ i, i ≠ position → g.slot i = f.slot i

theorem Frame.slot_set {f : Frame} {position : Nat} {slot : Slot} {cells : List (Option Cell)}
    (i : Nat) : ({ f with slots := f.slots.set position slot, cells := cells } : Frame).slot i =
      if i = position ∧ position < f.slots.length then slot else f.slot i := by
  simp only [Frame.slot, List.getD_eq_getElem?_getD, List.getElem?_set]
  grind

theorem Frame.fills_set (f : Frame) (position : Nat) (slot : Slot) (cells : List (Option Cell)) :
    f.Fills { f with slots := f.slots.set position slot, cells := cells } position :=
  ⟨rfl, rfl, rfl, List.length_set, fun i other => by rw [Frame.slot_set, if_neg (by simp [other])]⟩

namespace FrameM

variable {env : Environment} {plan : Plan} {p : Parameter} {v : Value} {s : Scratch}

theorem gives_touch_frame {α : Type} (x : HeapM α) :
    (touch x).Gives s (fun _ t => t.frame = s.frame) (fun _ _ => True) fun _ => True := by
  rw [gives_touch]
  exact (Action.gives_anyhow x _).mono (fun _ _ _ => rfl) fun _ _ _ => trivial

theorem setSlot_fills {position : Nat} {slot : Slot} :
    (setSlot position p slot).Gives s
      (fun _ t => s.frame.Fills t.frame position ∧
        (p.direction = .input → position < s.frame.slots.length → t.frame.slot position = slot))
      (fun _ _ => True) fun _ => True := by
  unfold setSlot
  split
  · rename_i direction
    rw [Action.gives_bind]
    refine (gives_touch_frame _).mono (fun cell t same => ?_) fun _ _ _ => trivial
    rw [Action.gives_bind]
    refine (gives_touch_frame _).mono (fun _ u same' => ?_) fun _ _ _ => trivial
    rw [gives_modifyFrame, same', same]
    exact ⟨Frame.fills_set _ _ _ _, fun input => by rw [input] at direction; cases direction⟩
  · rw [gives_modifyFrame]
    refine ⟨Frame.fills_set _ _ _ _, fun _ inside => ?_⟩
    exact (Frame.slot_set position).trans (if_pos ⟨rfl, inside⟩)

theorem setOutput_fills {position : Nat} :
    (setOutput position p).Gives s (fun _ t => s.frame.Fills t.frame position)
      (fun _ _ => True) fun _ => True := by
  unfold setOutput allocCell
  rw [Action.gives_bind]
  split <;>
  · rw [Action.gives_bind]
    refine (gives_touch_frame _).mono (fun cell t same => ?_) fun _ _ _ => trivial
    rw [Action.gives_pure, gives_modifyFrame, same]
    exact Frame.fills_set _ _ _ _

end FrameM

/-- A step that lowers an input: it leaves the count and the token of that input in front. -/
structure Frame.Leaves (f g : Frame) (p : Parameter) (slot : Slot) (count : Option Nat) : Prop where
  inputs : g.inputs = f.inputs
  slots : g.slots = f.slots
  counts : ∀ i, g.counts.lookup i = (p.countFor i count).or (f.counts.lookup i)
  tokens : ∀ i, g.tokens.lookup i = (p.tokenFor i slot).or (f.tokens.lookup i)

theorem lookup_tokens (closure destroy : Option Nat) (notifier slot : Slot)
    (tokens : List (Nat × Slot)) (i : Nat) :
    (destroy.toList.map (·, notifier) ++ closure.toList.map (·, slot) ++ tokens).lookup i =
      (if destroy = some i then some notifier else if closure = some i then some slot else none).or
        (tokens.lookup i) := by
  cases destroy <;> cases closure <;>
    simp only [Option.toList, List.map_nil, List.map_cons, List.nil_append, List.cons_append,
      List.lookup_cons, reduceCtorEq, if_false, Option.none_or, Option.some.injEq] <;>
    grind

namespace FrameM

variable {env : Environment} {plan : Plan} {p : Parameter} {v : Value} {s : Scratch}

theorem lowerCallbackInput_leaves {closure destroy : Option Nat}
    (role : p.role = .callback closure destroy) :
    (lowerCallbackInput env p closure destroy v).Gives s
      (fun slot t => s.frame.Leaves t.frame p slot none ∧ (v.isNullish = true → slot = .null))
      (fun _ _ => True) fun _ => True := by
  unfold lowerCallbackInput
  rw [Action.gives_bind, gives_convert]
  have lowered : (lowerCallback env p.type v p.nullable (releaseFor destroy p.scope env.policy)).Gives
      s.memory (fun slot _ => v.isNullish = true → slot = .null) (fun _ _ => True) fun _ => True := by
    by_cases nullish : v.isNullish = true
    · exact (lowerCallback_nullish nullish).mono (fun _ _ null _ => null) fun _ _ _ => trivial
    · exact (Action.gives_anyhow _ _).mono (fun _ _ _ absurd => (nullish absurd).elim)
        fun _ _ _ => trivial
  refine lowered.mono (fun slot m null => ?_) fun _ _ _ => trivial
  rw [Action.gives_bind, gives_modifyFrame, Action.gives_pure]
  refine ⟨⟨rfl, rfl, fun i => ?_, fun i => ?_⟩, null⟩
  · simp only [Parameter.countFor, role, Option.none_or]
  · simp only [Parameter.tokenFor, role]
    exact lookup_tokens closure destroy (notifierOf slot) slot _ i

theorem lowerArrayInput_leaves (other : ∀ closure destroy, p.role ≠ .callback closure destroy) :
    (lowerArrayInput env p v).Gives s
      (fun packed t => s.frame.Leaves t.frame p packed.1 (some packed.2) ∧ packed.2 = v.itemCount)
      (fun _ _ => True) fun _ => True := by
  unfold lowerArrayInput
  rw [Action.gives_bind, gives_convert]
  refine lowerArray_count.mono (fun packed m count => ?_) fun _ _ _ => trivial
  have noToken : ∀ i, p.tokenFor i packed.1 = none := by
    intro i
    cases role : p.role <;> simp_all [Parameter.tokenFor]
  dsimp only
  split
  · rename_i length role
    rw [Action.gives_bind, gives_modifyFrame, Action.gives_pure]
    refine ⟨⟨rfl, rfl, fun i => ?_, fun i => by rw [noToken, Option.none_or]⟩, count⟩
    simp only [Parameter.countFor, role, List.lookup_cons]
    grind
  · rename_i plain
    rw [Action.gives_pure]
    refine ⟨⟨rfl, rfl, fun i => ?_, fun i => by rw [noToken, Option.none_or]⟩, count⟩
    cases role : p.role <;> simp_all [Parameter.countFor]

theorem lowerInput_leaves (wired : plan.Wired) (listed : p ∈ plan.parameters) :
    (lowerInput env p v).Gives s
      (fun lowered t => s.frame.Leaves t.frame p lowered.1 lowered.2 ∧ Took p v lowered.1 lowered.2)
      (fun _ _ => True) fun _ => True := by
  unfold lowerInput
  split
  · rename_i closure destroy role
    rw [Action.gives_bind]
    refine (lowerCallbackInput_leaves role).mono (fun slot t leaves => ?_) fun _ _ _ => trivial
    rw [Action.gives_pure]
    refine ⟨leaves.1, fun length array => ?_, fun _ _ _ => leaves.2⟩
    cases role.symm.trans array
  · rename_i other
    rw [Action.gives_bind]
    refine (lowerArrayInput_leaves other).mono (fun packed t leaves => ?_) fun _ _ _ => trivial
    dsimp only
    rw [Action.gives_pure]
    exact ⟨leaves.1, fun _ _ => congrArg some leaves.2,
      fun closure destroy role => (other closure destroy role).elim⟩
  · rename_i other plain
    rw [Action.gives_bind, gives_convert]
    refine (Action.gives_anyhow _ _).mono (fun slot m _ => ?_) fun _ _ _ => trivial
    rw [Action.gives_pure]
    have noArray : ∀ length, p.role ≠ .array length := by
      intro length role
      obtain ⟨⟨element, form, pointer, type⟩, _⟩ := wired.array p listed length role
      exact plain element (.parameter length) form pointer type
    refine ⟨⟨rfl, rfl, fun i => ?_, fun i => ?_⟩, fun length role => (noArray length role).elim,
      fun closure destroy role => (other closure destroy role).elim⟩
    · cases role : p.role <;> simp_all [Parameter.countFor]
    · cases role : p.role <;> simp_all [Parameter.tokenFor]

end FrameM

/-- A frame in which counts, tokens and slots are those of its inputs. -/
structure Frame.Known (plan : Plan) (f : Frame) : Prop where
  length : f.slots.length = plan.parameters.length
  counts : ∀ i, f.counts.lookup i = plan.lastCount i f.inputs
  tokens : ∀ i, f.tokens.lookup i = plan.lastToken i f.inputs
  direct : ∀ x ∈ f.inputs, ∀ p, plan.parameters[x.position]? = some p → p.direction = .input →
    f.slot x.position = x.slot

namespace Frame

variable {plan : Plan} {p : Parameter} {f g h : Frame} {x : Lowered}

theorem known_start : (start plan.parameters.length).Known plan :=
  ⟨List.length_replicate, fun _ => rfl, fun _ => rfl, fun _ listed => nomatch listed⟩

theorem Known.fills {position : Nat} (known : f.Known plan) (fills : f.Fills g position)
    (apart : ∀ x ∈ f.inputs, x.position ≠ position) : g.Known plan := by
  obtain ⟨inputs, counts, tokens, length, others⟩ := fills
  constructor
  · rw [length, known.length]
  · rw [counts, inputs]
    exact known.counts
  · rw [tokens, inputs]
    exact known.tokens
  · intro x listed p found input
    rw [inputs] at listed
    rw [others _ (apart x listed), known.direct x listed p found input]

theorem Known.takes (known : f.Known plan) (leaves : f.Leaves g p x.slot x.count)
    (fills : Fills { g with inputs := g.inputs ++ [x] } h x.position)
    (found : plan.parameters[x.position]? = some p)
    (direct : p.direction = .input → h.slot x.position = x.slot)
    (apart : ∀ y ∈ f.inputs, y.position ≠ x.position) : h.Known plan := by
  obtain ⟨inputs, counts, tokens, length, others⟩ := fills
  have grown : h.inputs = f.inputs ++ [x] := by rw [inputs, leaves.inputs]
  constructor
  · rw [length, leaves.slots, known.length]
  · intro i
    rw [counts, grown, leaves.counts, known.counts, Plan.lastCount_concat found]
  · intro i
    rw [tokens, grown, leaves.tokens, known.tokens, Plan.lastToken_concat found]
  · intro y listed q found' input
    rw [grown, List.mem_append, List.mem_singleton] at listed
    rcases listed with old | rfl
    · rw [others _ (apart y old), Frame.slot, leaves.slots]
      exact known.direct y old q found' input
    · cases found.symm.trans found'
      exact direct input

end Frame

namespace FrameM

variable {env : Environment} {plan : Plan} {s : Scratch}

theorem takeInput_known {p : Parameter} {position : Nat} {v : Value} (wired : plan.Wired)
    (found : plan.parameters[position]? = some p) (known : s.frame.Known plan)
    (apart : ∀ x ∈ s.frame.inputs, x.position ≠ position) :
    (takeInput env p position v).Gives s
      (fun _ t => t.frame.Known plan ∧ ∃ x : Lowered, x.position = position ∧
        t.frame.inputs = s.frame.inputs ++ [x] ∧ x.From plan (p, v))
      (fun _ _ => True) fun _ => True := by
  rw [takeInput, Action.gives_bind]
  refine (lowerInput_leaves wired (List.mem_of_getElem? found)).mono (fun lowered t step => ?_)
    fun _ _ _ => trivial
  obtain ⟨leaves, took⟩ := step
  dsimp only
  rw [Action.gives_bind, gives_modifyFrame]
  refine setSlot_fills.mono (fun _ u step => ?_) fun _ _ _ => trivial
  obtain ⟨fills, direct⟩ := step
  have within : position < t.frame.slots.length := by
    rw [leaves.slots, known.length]
    exact (List.getElem?_eq_some_iff.1 found).1
  have grown : u.frame.inputs = s.frame.inputs ++ [⟨position, lowered.1, lowered.2⟩] := by
    rw [fills.inputs, leaves.inputs]
  refine ⟨?_, ⟨position, lowered.1, lowered.2⟩, rfl, grown, found, took⟩
  exact known.takes leaves fills found (fun input => direct input within) apart

theorem fillVisible_known (wired : plan.Wired) {parameters : List (Parameter × Nat)}
    {arguments : List Value} (inside : ∀ e ∈ parameters, plan.parameters[e.2]? = some e.1)
    (distinct : (parameters.map Prod.snd).Nodup) (known : s.frame.Known plan)
    (apart : ∀ x ∈ s.frame.inputs, x.position ∉ parameters.map Prod.snd) :
    (fillVisible env parameters arguments).Gives s
      (fun _ t => t.frame.Known plan ∧ ∃ taken, t.frame.inputs = s.frame.inputs ++ taken ∧
        List.Forall₂ (Lowered.From plan) taken (pairInputs (inputsOf parameters) arguments))
      (fun _ _ => True) fun _ => True := by
  induction parameters generalizing arguments s with
  | nil => exact ⟨known, [], (List.append_nil _).symm, .nil⟩
  | cons first rest ih =>
    obtain ⟨p, position⟩ := first
    obtain ⟨found, inside'⟩ := List.forall_mem_cons.1 inside
    obtain ⟨fresh, distinct'⟩ := List.nodup_cons.1 distinct
    have apart' : ∀ x ∈ s.frame.inputs, x.position ∉ rest.map Prod.snd := fun x listed later =>
      apart x listed (List.mem_cons_of_mem _ later)
    have other : ∀ x ∈ s.frame.inputs, x.position ≠ position := fun x listed same =>
      apart x listed (same ▸ List.mem_cons_self)
    rcases passes p with ⟨hidden, skipped⟩ | ⟨visible, out, skipped⟩ | ⟨visible, given, input⟩
    · rw [inputsOf_skip skipped, fillVisible_hidden hidden]
      exact ih inside' distinct' known apart'
    · rw [inputsOf_skip skipped, fillVisible_output visible out, Action.gives_bind]
      refine setOutput_fills.mono (fun _ t fills => ?_) fun _ _ _ => trivial
      rw [← fills.inputs] at apart' ⊢
      exact ih inside' distinct' (known.fills fills other) apart'
    · rw [inputsOf_input input, fillVisible_input visible given, pairInputs, Action.gives_bind]
      refine (takeInput_known wired found known other).mono
        (fun _ t ⟨known', x, here, grown, origin⟩ => ?_) fun _ _ _ => trivial
      have later : ∀ y ∈ t.frame.inputs, y.position ∉ rest.map Prod.snd := by
        intro y listed
        rw [grown, List.mem_append, List.mem_singleton] at listed
        rcases listed with old | rfl
        · exact apart' y old
        · rwa [here]
      refine (ih inside' distinct' known' later).mono (fun _ u ⟨final, taken, more, taking⟩ => ?_)
        fun _ _ _ => trivial
      refine ⟨final, x :: taken, ?_, .cons origin taking⟩
      rw [more, grown, List.append_assoc, List.singleton_append]

theorem hiddenSlot_gives {p : Parameter} {position : Nat} (known : s.frame.Known plan) :
    (hiddenSlot env position p).Gives s
      (fun slot t => slot = plan.hiddenSlot position p s.frame.inputs ∧ t.frame = s.frame)
      (fun _ _ => True) fun _ => True := by
  unfold hiddenSlot
  rw [Action.gives_bind, gives_frame, known.counts, known.tokens]
  split
  · rename_i count found
    rw [gives_convert]
    refine lower_number.mono (fun _ _ same => ⟨same.1.trans ?_, rfl⟩) fun _ _ _ => trivial
    rw [Plan.hiddenSlot, found]
  · rename_i found
    exact ⟨by rw [Plan.hiddenSlot, found], rfl⟩

theorem putHidden_fills {p : Parameter} {position : Nat} (known : s.frame.Known plan)
    (inside : position < plan.parameters.length) :
    (putHidden env p position).Gives s
      (fun _ t => s.frame.Fills t.frame position ∧ (p.direction = .input →
        t.frame.slot position = plan.hiddenSlot position p s.frame.inputs))
      (fun _ _ => True) fun _ => True := by
  unfold putHidden
  split
  · rename_i out
    refine setOutput_fills.mono (fun _ t fills => ⟨fills, fun input => ?_⟩) fun _ _ _ => trivial
    rw [input] at out
    cases out
  · rw [Action.gives_bind]
    refine (hiddenSlot_gives known).mono (fun slot t ⟨filled, kept⟩ => ?_) fun _ _ _ => trivial
    refine setSlot_fills.mono (fun _ u ⟨fills, direct⟩ => ?_) fun _ _ _ => trivial
    rw [kept] at fills direct
    refine ⟨fills, fun input => ?_⟩
    rw [direct input (known.length ▸ inside), filled]

theorem fillHidden_known {parameters : List (Parameter × Nat)} {inputs : List Lowered}
    (inside : ∀ e ∈ parameters, plan.parameters[e.2]? = some e.1)
    (distinct : (parameters.map Prod.snd).Nodup) (known : s.frame.Known plan)
    (same : s.frame.inputs = inputs) (shown : ∀ x ∈ inputs, ∀ p,
      plan.parameters[x.position]? = some p → p.isVisible = true) :
    (fillHidden env parameters).Gives s
      (fun _ t => t.frame.Known plan ∧ t.frame.inputs = inputs ∧
        (∀ i, i ∉ parameters.map Prod.snd → t.frame.slot i = s.frame.slot i) ∧
        ∀ e ∈ parameters, e.1.isVisible = false → e.1.direction = .input →
          t.frame.slot e.2 = plan.hiddenSlot e.2 e.1 inputs)
      (fun _ _ => True) fun _ => True := by
  induction parameters generalizing s with
  | nil => exact ⟨known, same, fun _ _ => rfl, fun _ listed => nomatch listed⟩
  | cons first rest ih =>
    obtain ⟨p, position⟩ := first
    obtain ⟨found, inside'⟩ := List.forall_mem_cons.1 inside
    obtain ⟨fresh, distinct'⟩ := List.nodup_cons.1 distinct
    by_cases hidden : p.isVisible = false
    · have other : ∀ x ∈ s.frame.inputs, x.position ≠ position := by
        rintro x listed rfl
        have visible := shown x (same ▸ listed) p found
        exact absurd (hidden.symm.trans visible) (by simp)
      rw [fillHidden_hidden hidden, Action.gives_bind]
      have place := (List.getElem?_eq_some_iff.1 found).1
      refine (putHidden_fills known place).mono (fun _ t ⟨fills, filled⟩ => ?_) fun _ _ _ => trivial
      refine (ih inside' distinct' (known.fills fills other) (fills.inputs.trans same)).mono
        (fun _ u ⟨known', same', others, filled'⟩ => ?_) fun _ _ _ => trivial
      refine ⟨known', same', fun i outside => ?_, List.forall_mem_cons.2 ⟨fun _ input => ?_, filled'⟩⟩
      · rw [List.map_cons, List.mem_cons, not_or] at outside
        rw [others i outside.2, fills.others i outside.1]
      · rw [others position fresh, filled input, same]
    · rw [fillHidden_visible (by simpa using hidden)]
      refine (ih inside' distinct' known same).mono (fun _ t ⟨known', same', others, filled⟩ => ?_)
        fun _ _ _ => trivial
      refine ⟨known', same', fun i outside => others i ?_, List.forall_mem_cons.2 ⟨?_, filled⟩⟩
      · exact fun later => outside (List.mem_cons_of_mem _ later)
      · exact fun absurd => (hidden absurd).elim

end FrameM

/-- What a native function finds at a declared argument, which comes after the receiver. -/
def nativeArgument (receiver : Option Nat) (slots : List Slot) (position : Nat) : Slot :=
  slots.getD (receiver.toList.length + position) .null

structure Plan.Served (plan : Plan) (receiver : Option Nat) (arguments : List Value)
    (slots : List Slot) (inputs : List Lowered) : Prop where
  taken : List.Forall₂ (Lowered.From plan) inputs (pairInputs plan.inputs arguments)
  direct : ∀ x ∈ inputs, ∀ p, plan.parameters[x.position]? = some p → p.direction = .input →
    nativeArgument receiver slots x.position = x.slot
  hidden : ∀ i q, plan.parameters[i]? = some q → q.role = .skip → q.direction = .input →
    nativeArgument receiver slots i = plan.hiddenSlot i q inputs

theorem mem_of_mem_pairInputs {parameters : List Parameter} {arguments : List Value}
    {given : Parameter × Value} (listed : given ∈ pairInputs parameters arguments) :
    given.1 ∈ parameters := by
  induction parameters generalizing arguments with
  | nil => exact nomatch listed
  | cons p rest ih =>
    rcases List.mem_cons.1 listed with rfl | later
    · exact List.mem_cons_self
    · exact List.mem_cons_of_mem _ (ih later)

theorem exists_of_forall₂ {α β : Type} {related : α → β → Prop} {left : List α} {right : List β}
    (all : List.Forall₂ related left right) {a : α} (listed : a ∈ left) :
    ∃ b ∈ right, related a b := by
  induction all with
  | nil => exact nomatch listed
  | cons first _ ih =>
    rcases List.mem_cons.1 listed with rfl | later
    · exact ⟨_, List.mem_cons_self, first⟩
    · obtain ⟨b, member, holds⟩ := ih later
      exact ⟨b, List.mem_cons_of_mem _ member, holds⟩

theorem nativeArgument_eq {receiver : Option Nat} {f : Frame} {position : Nat}
    (inside : position < f.slots.length) :
    nativeArgument receiver
        (receiver.toList.map .ofNat ++ f.slots ++ f.errorCell.toList.map .ofNat) position =
      f.slot position := by
  have past : (receiver.toList.map Slot.ofNat).length ≤ receiver.toList.length + position := by
    rw [List.length_map]
    exact Nat.le_add_right _ _
  rw [nativeArgument, Frame.slot, List.getD_eq_getElem?_getD, List.append_assoc,
    List.getElem?_append_right past, List.length_map, Nat.add_sub_cancel_left,
    List.getElem?_append_left inside, List.getD_eq_getElem?_getD]

namespace FrameM

variable {env : Environment} {plan : Plan} {m : Memory} {receiver : Option Nat}
  {arguments : List Value}

theorem allocErrorCell_gives {s : Scratch} :
    (allocErrorCell plan).Gives s
      (fun _ t => t.frame.slots = s.frame.slots ∧ t.frame.inputs = s.frame.inputs)
      (fun _ _ => True) fun _ => True := by
  unfold allocErrorCell
  split
  · rw [Action.gives_bind]
    refine (gives_touch_frame _).mono (fun cell t same => ?_) fun _ _ _ => trivial
    rw [gives_modifyFrame, same]
    exact ⟨rfl, rfl⟩
  · exact ⟨rfl, rfl⟩

/-- Inputs are taken for visible parameters only. -/
theorem isVisible_of_taken {inputs : List Lowered}
    (taken : List.Forall₂ (Lowered.From plan) inputs (pairInputs plan.inputs arguments)) :
    ∀ x ∈ inputs, ∀ p, plan.parameters[x.position]? = some p → p.isVisible = true := by
  intro x listed p found
  obtain ⟨given, member, source, -⟩ := exists_of_forall₂ taken listed
  cases found.symm.trans source
  have input := (List.mem_filter.1 (mem_of_mem_pairInputs member)).2
  exact (Bool.and_eq_true_iff.1 input).1

theorem nativeSlots_served (wired : plan.Wired) :
    (nativeSlots env plan receiver arguments).Gives ⟨.start plan.parameters.length, m⟩
      (fun slots t => plan.Served receiver arguments slots t.frame.inputs)
      (fun _ _ => True) fun _ => True := by
  have inside := plan.getElem?_position
  have distinct := plan.nodup_positions
  have apart : ∀ x ∈ (Frame.start plan.parameters.length).inputs,
      x.position ∉ plan.parameters.zipIdx.map Prod.snd := by
    simp only [Frame.start, List.not_mem_nil, false_imp_iff, implies_true]
  unfold nativeSlots
  rw [Action.gives_bind]
  refine (fillVisible_known wired inside distinct Frame.known_start apart).mono
    (fun _ t ⟨known, taken, grown, taking⟩ => ?_) fun _ _ _ => trivial
  rw [inputsOf_zipIdx] at taking
  change t.frame.inputs = taken at grown
  have shown := isVisible_of_taken taking
  rw [Action.gives_bind]
  refine (fillHidden_known inside distinct known grown shown).mono
    (fun _ u ⟨known', same, _, filled'⟩ => ?_) fun _ _ _ => trivial
  rw [Action.gives_bind]
  refine allocErrorCell_gives.mono (fun _ w ⟨slots, inputs⟩ => ?_) fun _ _ _ => trivial
  rw [Action.gives_bind, gives_frame, Action.gives_pure, inputs, same]
  have found : ∀ i q, plan.parameters[i]? = some q →
      nativeArgument receiver (receiver.toList.map .ofNat ++ w.frame.slots ++
        w.frame.errorCell.toList.map .ofNat) i = u.frame.slot i := by
    intro i q found
    rw [nativeArgument_eq, Frame.slot, slots, Frame.slot]
    rw [slots, known'.length]
    exact (List.getElem?_eq_some_iff.1 found).1
  refine ⟨taking, fun x listed p source input => ?_, fun i q source role input => ?_⟩
  · rw [found x.position p source]
    exact known'.direct x (same ▸ listed) p source input
  · rw [found i q source]
    have hidden : q.isVisible = false := by simp [Parameter.isVisible, role]
    exact filled' (q, i) (List.mem_zipIdx_iff_getElem?.2 source) hidden input

end FrameM
end ForeignCall
