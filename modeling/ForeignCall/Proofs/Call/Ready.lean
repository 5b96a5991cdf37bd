import ForeignCall.Proofs.Call.Shown

/-!
What a native function is entered with when plain data is passed.

Both passes over the parameters succeed. Then every input shows what was given, every length shows the
count of its array, and the cell for an error is empty.
-/

set_option autoImplicit false

namespace ForeignCall

variable {env : Environment} {plan : Plan} {p q : Parameter} {v : Value} {s t u : Scratch}
  {slot : Slot} {position limit : Nat} {positions : List Nat} {halted : Halt → Prop}
  {failed : CallError → Scratch → Prop}

/-- Plans by which the script passes plain data in, or in and out again, and gets nothing else back.
The length of an array is an argument that nothing else is linked to. -/
structure Plan.PassesData (plan : Plan) : Prop where
  skips : plan.skipReturn = true
  data : ∀ p ∈ plan.parameters, p.isVisible = true →
    p.type.isData = true ∧ p.type.isMeasuredWithin = true
  passed : ∀ p ∈ plan.parameters, p.isVisible = true →
    p.direction = .inout ∨ p.direction = .input ∧ p.transfer = .nothing
  sized : ∀ p ∈ plan.parameters, p.isVisible = true →
    p.type.isSelfSized = true ∨ ∃ length, p.role = .array length
  linked : ∀ (i : Nat) (p : Parameter) (length : Nat),
    plan.parameters[i]? = some p → p.role = .array length →
      ∃ (q : Parameter) (format : IntFormat) (pointer : Bool),
        plan.parameters[length]? = some q ∧ q.direction ≠ .output ∧
          q.type = .basic (.integer format) pointer ∧
          ∀ (j : Nat) (r : Parameter), plan.parameters[j]? = some r → r.LinksTo length → j = i

def visiblePlaces (parameters : List (Parameter × Nat)) : List Nat :=
  (parameters.filter (·.1.isVisible)).map Prod.snd

def hiddenPlaces (parameters : List (Parameter × Nat)) : List Nat :=
  (parameters.filter (!·.1.isVisible)).map Prod.snd

theorem mem_visiblePlaces {parameters : List (Parameter × Nat)}
    (listed : position ∈ visiblePlaces parameters) : position ∈ parameters.map Prod.snd := by
  obtain ⟨e, shown, rfl⟩ := List.mem_map.1 listed
  exact List.mem_map_of_mem (List.mem_of_mem_filter shown)

theorem mem_hiddenPlaces {parameters : List (Parameter × Nat)}
    (listed : position ∈ hiddenPlaces parameters) : position ∈ parameters.map Prod.snd := by
  obtain ⟨e, hidden, rfl⟩ := List.mem_map.1 listed
  exact List.mem_map_of_mem (List.mem_of_mem_filter hidden)

theorem isVisible_of_place (place : position ∈ visiblePlaces plan.parameters.zipIdx)
    (found : plan.parameters[position]? = some p) : p.isVisible = true := by
  obtain ⟨e, listed, rfl⟩ := List.mem_map.1 place
  rw [List.mem_filter] at listed
  cases found.symm.trans (plan.getElem?_position e listed.1)
  exact listed.2

theorem isVisible_of_hiddenPlace (place : position ∈ hiddenPlaces plan.parameters.zipIdx)
    (found : plan.parameters[position]? = some p) : p.isVisible = false := by
  obtain ⟨e, listed, rfl⟩ := List.mem_map.1 place
  rw [List.mem_filter] at listed
  cases found.symm.trans (plan.getElem?_position e listed.1)
  simpa using listed.2

/-- Address space enough to lower an input and for its cell. -/
def inputRoom (given : Parameter × Value) : Nat := 15 + given.1.type.room given.2

namespace FrameM

theorem fillVisible_shows {parameters : List (Parameter × Nat)} {arguments : List Value}
    (wired : plan.Wired) (passes : plan.PassesData)
    (inside : ∀ e ∈ parameters, plan.parameters[e.2]? = some e.1)
    (distinct : (parameters.map Prod.snd).Nodup)
    (vacant : ∀ e ∈ parameters, s.frame.Vacant e.2)
    (carries : ∀ x ∈ pairInputs (inputsOf parameters) arguments, x.1.type.Carries x.2)
    (enough : s.memory.heap.size +
      ((pairInputs (inputsOf parameters) arguments).map inputRoom).sum ≤ limit) :
    (fillVisible env parameters arguments).Gives s
      (fun _ t => t.memory.heap.size ≤ s.memory.heap.size +
          ((pairInputs (inputsOf parameters) arguments).map inputRoom).sum ∧
        s.Fills t (visiblePlaces parameters) ∧
        ∃ taken, t.frame.inputs = s.frame.inputs ++ taken ∧
          taken.map (·.position) = visiblePlaces parameters ∧
          List.Forall₂ (Lowered.Shown plan t) taken (pairInputs (inputsOf parameters) arguments))
      (fun _ _ => False) (Heap.Full limit) := by
  induction parameters generalizing arguments s with
  | nil => exact ⟨Nat.le_refl _, .refl s, [], (List.append_nil _).symm, rfl, .nil⟩
  | cons first rest ih =>
    obtain ⟨p, position⟩ := first
    obtain ⟨found, inside'⟩ := List.forall_mem_cons.1 inside
    obtain ⟨fresh, distinct'⟩ := List.nodup_cons.1 distinct
    obtain ⟨here, vacant'⟩ := List.forall_mem_cons.1 vacant
    have listed := List.mem_of_getElem? found
    by_cases visible : p.isVisible = true
    · obtain ⟨data, -⟩ := passes.data p listed visible
      have given : p.direction ≠ .output := by
        rcases passes.passed p listed visible with inout | ⟨input, -⟩ <;> simp [*]
      have inward : p.direction.isIn = true := by
        revert given
        cases p.direction <;> decide
      have input : p.isInput = true := by rw [Parameter.isInput, visible, inward, Bool.and_self]
      have plain : ∀ closure destroy, p.role ≠ .callback closure destroy := by
        intro closure destroy role
        obtain ⟨⟨name, pointer, type⟩, -⟩ := wired.callback p listed closure destroy role
        rw [type] at data
        cases data
      have places : visiblePlaces ((p, position) :: rest) = position :: visiblePlaces rest := by
        simp [visiblePlaces, visible]
      rw [inputsOf_input input, pairInputs] at carries enough ⊢
      simp only [List.map_cons, List.sum_cons, inputRoom] at enough ⊢
      rw [List.forall_mem_cons] at carries
      have carried : p.type.Carries (arguments.headD .undefined) := carries.1
      rw [fillVisible_input visible given, Action.gives_bind, places]
      refine (takeInput_shows (p := p) found visible data plain carried here (by omega)).mono ?_
        fun _ _ never => never
      rintro _ t ⟨bound, fills, x, here, grown, shown⟩
      have later : ∀ e ∈ rest, t.frame.Vacant e.2 := by
        intro e member
        apply fills.vacant _ (vacant' e member)
        rw [List.mem_singleton]
        exact fun same => fresh (List.mem_map.2 ⟨e, member, same⟩)
      refine (ih inside' distinct' later carries.2 (by omega)).mono ?_ fun _ _ never => never
      rintro _ u ⟨bound', fills', taken, more, located, all⟩
      refine ⟨by omega, fills.trans fills', x :: taken, ?_, ?_, .cons ?_ all⟩
      · rw [more, grown, List.append_assoc, List.singleton_append]
      · rw [List.map_cons, located, here]
      · apply shown.fills fills'
        rw [here]
        exact fun again => fresh (mem_visiblePlaces again)
    · have hidden : p.isVisible = false := by simpa using visible
      have skipped : p.isInput = false := by simp [Parameter.isInput, hidden]
      have places : visiblePlaces ((p, position) :: rest) = visiblePlaces rest := by
        simp [visiblePlaces, hidden]
      rw [inputsOf_skip skipped] at carries enough ⊢
      rw [fillVisible_hidden hidden, places]
      exact ih inside' distinct' vacant' carries enough

theorem hiddenSlot_counts (known : s.frame.Known plan)
    (typed : ∀ count, plan.lastCount position s.frame.inputs = some count →
      ∃ format pointer, q.type = .basic (.integer format) pointer) :
    (hiddenSlot env position q).Gives s
      (fun slot t => t = s ∧ ∀ count, plan.lastCount position s.frame.inputs = some count →
        slot = q.type.numberSlot (.ofNat count))
      failed halted := by
  rw [hiddenSlot, Action.gives_bind, gives_frame, known.counts]
  cases last : plan.lastCount position s.frame.inputs with
  | none => exact ⟨rfl, fun _ absurd => nomatch absurd⟩
  | some count =>
    obtain ⟨format, pointer, type⟩ := typed count last
    have lowered : lower env q.type (.number (.ofNat count)) false s.memory =
        .ok (q.type.numberSlot (.ofNat count)) s.memory := by
      rw [type]
      rfl
    rw [gives_convert]
    refine Action.gives_of_ok lowered ⟨rfl, fun n same => ?_⟩
    cases same
    rfl

theorem putHidden_shows (known : s.frame.Known plan) (vacant : s.frame.Vacant position)
    (typed : ∀ count, plan.lastCount position s.frame.inputs = some count →
      ∃ format pointer, q.type = .basic (.integer format) pointer)
    (enough : s.memory.heap.size + q.cellRoom ≤ limit) :
    (putHidden env q position).Gives s
      (fun _ t => t.memory.heap.size ≤ s.memory.heap.size + q.cellRoom ∧ s.Fills t [position] ∧
        (q.direction ≠ .output → ∀ count, plan.lastCount position s.frame.inputs = some count →
          t.frame.Shows t.memory.heap position q (q.type.numberSlot (.ofNat count))))
      (fun _ _ => False) (Heap.Full limit) := by
  have wide := q.le_cellRoom
  unfold putHidden
  split
  · rename_i out
    refine (setOutput_shows enough).mono ?_ fun _ _ never => never
    exact fun _ t ⟨bound, fills⟩ => ⟨bound, fills, fun other => absurd out other⟩
  · rw [Action.gives_bind]
    refine (hiddenSlot_counts known typed).mono ?_ fun _ _ never => never
    rintro slot _ ⟨rfl, counted⟩
    refine (setSlot_shows vacant (by omega)).mono ?_ fun _ _ never => never
    rintro _ t ⟨bound, fills, shows⟩
    refine ⟨by omega, fills, fun _ count last => ?_⟩
    obtain ⟨format, pointer, type⟩ := typed count last
    have narrow : format.width.bytes ≤ 8 := by cases format.width <;> decide
    rw [counted count last, type] at shows
    rw [type]
    exact shows (truncate_lt_size _ format) narrow

theorem fillHidden_shows {parameters : List (Parameter × Nat)} {inputs : List Lowered}
    (inside : ∀ e ∈ parameters, plan.parameters[e.2]? = some e.1)
    (distinct : (parameters.map Prod.snd).Nodup)
    (vacant : ∀ e ∈ parameters, e.1.isVisible = false → s.frame.Vacant e.2)
    (known : s.frame.Known plan) (same : s.frame.inputs = inputs)
    (shown : ∀ x ∈ inputs, ∀ p, plan.parameters[x.position]? = some p → p.isVisible = true)
    (typed : ∀ (i : Nat) (q : Parameter) (count : Nat), plan.parameters[i]? = some q →
      plan.lastCount i inputs = some count →
        ∃ format pointer, q.type = .basic (.integer format) pointer)
    (enough : s.memory.heap.size + (parameters.map (·.1.cellRoom)).sum ≤ limit) :
    (fillHidden env parameters).Gives s
      (fun _ t => t.memory.heap.size ≤ s.memory.heap.size + (parameters.map (·.1.cellRoom)).sum ∧
        s.Fills t (hiddenPlaces parameters) ∧ t.frame.inputs = inputs ∧
        ∀ e ∈ parameters, e.1.isVisible = false → e.1.direction ≠ .output →
          ∀ count, plan.lastCount e.2 inputs = some count →
            t.frame.Shows t.memory.heap e.2 e.1 (e.1.type.numberSlot (.ofNat count)))
      (fun _ _ => False) (Heap.Full limit) := by
  induction parameters generalizing s with
  | nil => exact ⟨Nat.le_refl _, .refl s, same, fun _ listed => nomatch listed⟩
  | cons first rest ih =>
    obtain ⟨q, position⟩ := first
    obtain ⟨found, inside'⟩ := List.forall_mem_cons.1 inside
    obtain ⟨fresh, distinct'⟩ := List.nodup_cons.1 distinct
    obtain ⟨here, vacant'⟩ := List.forall_mem_cons.1 vacant
    simp only [List.map_cons, List.sum_cons] at enough ⊢
    by_cases hidden : q.isVisible = false
    · have other : ∀ x ∈ s.frame.inputs, x.position ≠ position := by
        rintro x listed rfl
        have visible := shown x (same ▸ listed) q found
        exact absurd (hidden.symm.trans visible) (by simp)
      have places : hiddenPlaces ((q, position) :: rest) = position :: hiddenPlaces rest := by
        simp [hiddenPlaces, hidden]
      have place := (List.getElem?_eq_some_iff.1 found).1
      rw [fillHidden_hidden hidden, Action.gives_bind, places]
      refine Action.Gives.mono (Action.Gives.both (putHidden_shows known (here hidden)
        (fun count last => typed position q count found (same ▸ last)) (by omega))
        (putHidden_fills known place)) ?_ fun _ _ never => never.1
      rintro _ t ⟨⟨bound, fills, shows⟩, kept, -⟩
      have later : ∀ e ∈ rest, e.1.isVisible = false → t.frame.Vacant e.2 := by
        intro e member unseen
        apply fills.vacant _ (vacant' e member unseen)
        rw [List.mem_singleton]
        exact fun same => fresh (List.mem_map.2 ⟨e, member, same⟩)
      refine (ih inside' distinct' later (known.fills kept other) (kept.inputs.trans same)
        (by omega)).mono ?_ fun _ _ never => never
      rintro _ u ⟨bound', fills', same', all⟩
      refine ⟨by omega, fills.trans fills', same', List.forall_mem_cons.2 ⟨?_, all⟩⟩
      intro _ passed count last
      apply fills'.shows (fun again => fresh (mem_hiddenPlaces again))
      exact shows passed count (same ▸ last)
    · have visible : q.isVisible = true := by simpa using hidden
      have places : hiddenPlaces ((q, position) :: rest) = hiddenPlaces rest := by
        simp [hiddenPlaces, visible]
      rw [fillHidden_visible visible, places]
      refine (ih inside' distinct' vacant' known same (by omega)).mono ?_ fun _ _ never => never
      rintro _ t ⟨bound, fills, same', all⟩
      refine ⟨by omega, fills, same', List.forall_mem_cons.2 ⟨fun unseen => ?_, all⟩⟩
      exact absurd unseen hidden

theorem allocErrorCell_shows (vacant : s.frame.errorCell = none)
    (enough : s.memory.heap.size + 15 ≤ limit) :
    (allocErrorCell plan).Gives s
      (fun _ t => s.memory.heap.Retains t.memory.heap ∧
        t.frame = { s.frame with errorCell := t.frame.errorCell } ∧
        ∀ cell ∈ t.frame.errorCell,
          t.memory.heap.Accessible cell 8 ∧ t.memory.heap.slotAt cell 8 = .null)
      (fun _ _ => False) (Heap.Full limit) := by
  unfold allocErrorCell
  split
  · rw [Action.gives_bind, gives_touch]
    refine (gives_word enough).mono ?_ fun _ _ never => never
    rintro cell g ⟨retains, -, -, within, blank⟩
    rw [gives_modifyFrame]
    refine ⟨retains, rfl, fun found listed => ?_⟩
    cases listed
    exact ⟨within, blank⟩
  · refine ⟨.refl _, rfl, fun cell listed => ?_⟩
    rw [vacant] at listed
    cases listed

end FrameM

/-- Address space enough to fill the slots of a call. -/
def Plan.room (plan : Plan) (arguments : List Value) : Nat :=
  ((pairInputs plan.inputs arguments).map inputRoom).sum +
    (plan.parameters.map (·.cellRoom)).sum + 15

/-- What the native function is entered with: every input shows what was given, every length the count
of its array, and there is no error. -/
structure Scratch.Ready (s : Scratch) (plan : Plan) (arguments : List Value) : Prop where
  places : s.frame.inputs.map (·.position) = visiblePlaces plan.parameters.zipIdx
  inputs : List.Forall₂ (Lowered.Shown plan s) s.frame.inputs (pairInputs plan.inputs arguments)
  lengths : ∀ x ∈ s.frame.inputs, ∀ p length q, plan.parameters[x.position]? = some p →
    p.role = .array length → plan.parameters[length]? = some q →
      ∃ count, x.count = some count ∧
        s.frame.Shows s.memory.heap length q (q.type.numberSlot (.ofNat count))
  errorCell : ∀ cell ∈ s.frame.errorCell,
    s.memory.heap.Accessible cell 8 ∧ s.memory.heap.slotAt cell 8 = .null

theorem Plan.exists_of_lastCount {inputs : List Lowered} {count : Nat}
    (last : plan.lastCount position inputs = some count) :
    ∃ x ∈ inputs, ∃ p, plan.parameters[x.position]? = some p ∧ p.role = .array position := by
  obtain ⟨x, member, left⟩ := List.exists_of_findSome?_eq_some last
  obtain ⟨p, source, counted⟩ := Option.bind_eq_some_iff.1 left
  refine ⟨x, List.mem_reverse.1 member, p, source, ?_⟩
  unfold Parameter.countFor at counted
  split at counted
  · rename_i length role
    rw [Option.ite_none_right_eq_some] at counted
    rw [role, counted.1]
  · cases counted

theorem nodup_visiblePlaces (plan : Plan) : (visiblePlaces plan.parameters.zipIdx).Nodup :=
  plan.nodup_positions.sublist (List.filter_sublist.map Prod.snd)

namespace Plan.PassesData

variable {taken : List Lowered} {x : Lowered} {length count : Nat}

/-- An argument that a count is left for is an integer. -/
theorem exists_integer (passes : plan.PassesData) (found : plan.parameters[position]? = some q)
    (last : plan.lastCount position taken = some count) :
    ∃ format pointer, q.type = .basic (.integer format) pointer := by
  obtain ⟨x, -, p, source, role⟩ := Plan.exists_of_lastCount last
  obtain ⟨q', format, pointer, found', -, type, -⟩ := passes.linked _ p position source role
  cases found.symm.trans found'
  exact ⟨format, pointer, type⟩

/-- The count left for the length of an array is the count of that array: no other input is linked to
the length. -/
theorem lastCount_eq (passes : plan.PassesData) (distinct : (taken.map (·.position)).Nodup)
    (listed : x ∈ taken) (source : plan.parameters[x.position]? = some p)
    (role : p.role = .array length) (packed : x.count = some count) :
    plan.lastCount length taken = some count := by
  obtain ⟨last, lastly, sole⟩ := Plan.exists_lastCount listed source role packed
  obtain ⟨-, -, -, -, -, -, only⟩ := passes.linked x.position p length source role
  rw [lastly, sole fun y member r found linked => ?_]
  exact List.inj_on_of_nodup_map distinct member listed (only y.position r found linked)

end Plan.PassesData

namespace FrameM

variable {m : Memory} {receiver : Option Nat} {arguments : List Value}

theorem nativeSlots_ready (wired : plan.Wired) (passes : plan.PassesData)
    (carries : ∀ x ∈ pairInputs plan.inputs arguments, x.1.type.Carries x.2)
    (enough : m.heap.size + plan.room arguments ≤ limit) :
    (nativeSlots env plan receiver arguments).Gives ⟨.start plan.parameters.length, m⟩
      (fun _ t => t.Ready plan arguments ∧ t.frame.outputs = []) (fun _ _ => False)
      (Heap.Full limit) := by
  have inside := plan.getElem?_position
  have distinct := plan.nodup_positions
  have vacant : ∀ e ∈ plan.parameters.zipIdx,
      (Frame.start plan.parameters.length).Vacant e.2 := fun e listed =>
    .start (List.getElem?_eq_some_iff.1 (inside e listed)).1
  have apart : ∀ x ∈ (Frame.start plan.parameters.length).inputs,
      x.position ∉ plan.parameters.zipIdx.map Prod.snd := by
    simp only [Frame.start, List.not_mem_nil, false_imp_iff, implies_true]
  have cells : (plan.parameters.zipIdx.map (·.1.cellRoom)) = plan.parameters.map (·.cellRoom) := by
    have same := congrArg (List.map Parameter.cellRoom) (List.zipIdx_map_fst 0 plan.parameters)
    rwa [List.map_map] at same
  simp only [Plan.room] at enough
  unfold nativeSlots
  rw [Action.gives_bind]
  rw [← inputsOf_zipIdx] at carries enough
  refine Action.Gives.mono (Action.Gives.both
    (fillVisible_shows wired passes inside distinct vacant carries ?_)
    (fillVisible_known wired inside distinct Frame.known_start apart)) ?_ fun _ _ never => never.1
  · dsimp only
    omega
  rintro _ t ⟨⟨bound, fills, taken, grown, places, shown⟩, known, -⟩
  change t.frame.inputs = taken at grown
  rw [inputsOf_zipIdx] at shown bound enough carries
  have visible : ∀ x ∈ taken, ∀ p, plan.parameters[x.position]? = some p →
      p.isVisible = true := by
    intro x listed p found
    refine isVisible_of_place ?_ found
    rw [← places]
    exact List.mem_map_of_mem listed
  have remaining : ∀ e ∈ plan.parameters.zipIdx, e.1.isVisible = false → t.frame.Vacant e.2 := by
    intro e listed hidden
    apply fills.vacant _ (vacant e listed)
    intro place
    rw [isVisible_of_place place (inside e listed)] at hidden
    cases hidden
  rw [Action.gives_bind]
  refine (fillHidden_shows inside distinct remaining known grown visible
    (fun _ _ _ => passes.exists_integer) ?_).mono ?_
    fun _ _ never => never
  · rw [cells]
    dsimp only at bound
    omega
  rintro _ u ⟨bound', fills', same, lengths⟩
  rw [cells] at bound'
  dsimp only at bound
  rw [Action.gives_bind]
  refine (allocErrorCell_shows (fills'.errorCell.trans fills.errorCell) (by omega)).mono ?_
    fun _ _ never => never
  rintro _ w ⟨retains, frame, blank⟩
  rw [Action.gives_bind, gives_frame, Action.gives_pure]
  -- The cell for the error leaves what arguments show alone.
  have still : ∀ {i : Nat} {q : Parameter} {slot : Slot},
      u.frame.Shows u.memory.heap i q slot → w.frame.Shows w.memory.heap i q slot := by
    intro i q slot shows
    rw [frame]
    exact shows.frame retains.size_le retains.byteAt_eq
  have inputs : w.frame.inputs = taken := by rw [frame, same]
  refine ⟨⟨by rw [inputs, places], ?_, ?_, blank⟩, ?_⟩
  · rw [inputs]
    refine shown.imp fun x given lowered => ?_
    have kept := lowered.fills fills' fun place => by
      have hidden := isVisible_of_hiddenPlace place lowered.source
      rw [lowered.visible] at hidden
      cases hidden
    exact kept.frame (still kept.shows) retains.size_le retains.byteAt_eq
  · rw [inputs]
    intro x listed p length q source role found
    obtain ⟨given, member, lowered⟩ := exists_of_forall₂ shown listed
    cases source.symm.trans lowered.source
    obtain ⟨count, packed⟩ := lowered.exists_count wired (carries given member) role
    obtain ⟨q', -, -, found', passed, -⟩ := passes.linked x.position given.1 length source role
    cases found.symm.trans found'
    have skip : q.role = .skip :=
      wired.skip_of_linksTo (List.mem_of_getElem? source) (by rw [Parameter.LinksTo, role]) found
    have hidden : q.isVisible = false := by simp [Parameter.isVisible, skip]
    have last := passes.lastCount_eq (places ▸ nodup_visiblePlaces plan) listed source role packed
    exact ⟨count, packed, still
      (lengths (q, length) (List.mem_zipIdx_iff_getElem?.2 found) hidden passed count last)⟩
  · rw [frame, fills'.outputs, fills.outputs]
    rfl

end FrameM

end ForeignCall
