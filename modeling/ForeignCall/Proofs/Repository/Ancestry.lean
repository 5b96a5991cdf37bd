import ForeignCall.Proofs.Conversion.Steps
import ForeignCall.Proofs.Repository.Loading

/-!
Ancestry: which names a walk along parents reaches.

A type is an instance of every name that at most 63 links lead to, its own name included, whether
or not the last of them is the name of an entry. Where no chain is longer, that is a preorder, and a
value that goes with a type goes with every type of its shape that has ancestors in place of its
names.
-/

set_option autoImplicit false

namespace ForeignCall

namespace Repository

variable {r : Repository} {name between ancestor : String} {links more steps : Nat}

/-- So many links to a parent lead from a name to an ancestor. -/
inductive Climbs (r : Repository) : Nat → String → String → Prop
  | stay (name : String) : Climbs r 0 name name
  | step {links : Nat} {name parent ancestor : String} (link : r.parent? name = some parent)
      (rest : Climbs r links parent ancestor) : Climbs r (links + 1) name ancestor

/-- A name that some number of links leads to. -/
def Derives (r : Repository) (name ancestor : String) : Prop :=
  ∃ links, r.Climbs links name ancestor

/-- No chain of parents is longer than a walk follows, so that none closes into a ring. -/
def Shallow (r : Repository) : Prop :=
  ∀ links name ancestor, r.Climbs links name ancestor → links ≤ 63

theorem Climbs.trans (first : r.Climbs links name between)
    (second : r.Climbs more between ancestor) : r.Climbs (links + more) name ancestor := by
  induction first with
  | stay name => rwa [Nat.zero_add]
  | step link _ ih =>
    rw [Nat.add_right_comm]
    exact .step link (ih second)

theorem Derives.trans (first : r.Derives name between) (second : r.Derives between ancestor) :
    r.Derives name ancestor := by
  obtain ⟨_, climbs⟩ := first
  obtain ⟨_, climbs'⟩ := second
  exact ⟨_, climbs.trans climbs'⟩

/-- A walk that looks at so many names comes to those that fewer links lead to. -/
theorem reaches_iff_climbs :
    r.reaches ancestor steps name = true ↔ ∃ links < steps, r.Climbs links name ancestor := by
  induction steps generalizing name with
  | zero => simp [reaches]
  | succ steps ih =>
    rw [reaches, Bool.or_eq_true, beq_iff_eq]
    constructor
    · rintro (rfl | up)
      · exact ⟨0, Nat.succ_pos steps, .stay name⟩
      · split at up
        · rename_i parent link
          obtain ⟨links, few, climbs⟩ := ih.1 up
          exact ⟨links + 1, Nat.succ_lt_succ few, .step link climbs⟩
        · cases up
    · rintro ⟨links, few, climbs⟩
      cases climbs with
      | stay => exact .inl rfl
      | step link rest =>
        rw [link]
        exact .inr (ih.2 ⟨_, Nat.lt_of_succ_lt_succ few, rest⟩)

theorem isA_iff_climbs :
    r.isA name ancestor = true ↔ ∃ links ≤ 63, r.Climbs links name ancestor := by
  rw [isA, reaches_iff_climbs, show ancestryBound = 64 from rfl]
  simp only [Nat.lt_succ_iff]

theorem Shallow.isA_iff_derives (shallow : r.Shallow) :
    r.isA name ancestor = true ↔ r.Derives name ancestor := by
  rw [isA_iff_climbs]
  constructor
  · rintro ⟨links, -, climbs⟩
    exact ⟨links, climbs⟩
  · rintro ⟨links, climbs⟩
    exact ⟨links, shallow _ _ _ climbs, climbs⟩

/-- Where every link leads to a name of less height, no chain is longer than the height it starts
at. -/
theorem shallow_of_height (height : String → Nat) (bounded : ∀ name, height name ≤ 63)
    (falls : ∀ name parent, r.parent? name = some parent → height parent < height name) :
    r.Shallow := by
  have descends : ∀ links name ancestor, r.Climbs links name ancestor → links ≤ height name := by
    intro links name ancestor climbs
    induction climbs with
    | stay => exact Nat.zero_le _
    | step link _ ih => exact Nat.lt_of_le_of_lt ih (falls _ _ link)
  intro links name ancestor climbs
  exact Nat.le_trans (descends links name ancestor climbs) (bounded name)

/-! ### Entries put in one by one -/

section Entries

variable {r : Repository} {name : String} {e found : EntryRecord}

/-- An entry that is found after another was put in is that one, or was found before. -/
theorem eq_or_resolve?_of_insertEntry (run : (r.insertEntry e).resolve? name = some found) :
    found = e ∨ r.resolve? name = some found := by
  obtain ⟨⟨ns, rest⟩, split, run⟩ := Option.bind_eq_some_iff.1 run
  rw [resolve?, split]
  dsimp only [Option.bind_eq_bind, Option.bind_some]
  simp only [lookup?, insertEntry, Std.TreeMap.getElem?_insert] at run
  split at run
  · rename_i same
    obtain rfl := Std.LawfulEqCmp.eq_of_compare same
    rw [Option.bind_some, Std.TreeMap.getElem?_insert] at run
    split at run
    · exact .inl (Option.some.inj run).symm
    · rw [entries_namespaceOf] at run
      exact .inr run
  · exact .inr run

theorem parent?_insertEntry {parent : String}
    (link : (r.insertEntry e).parent? name = some parent) :
    e.parent = some parent ∨ r.parent? name = some parent := by
  obtain ⟨found, run, up⟩ := Option.bind_eq_some_iff.1 link
  rcases eq_or_resolve?_of_insertEntry run with rfl | old
  · exact .inl up
  · exact .inr (by rw [parent?, old]; exact up)

end Entries

end Repository

/-! ### Types with ancestors in place of their names -/

/-- Named types that are held and passed alike; how large a struct is does not matter. -/
def NamedType.Alike : NamedType → NamedType → Prop
  | .structured _ byValue, .structured _ byValue' => byValue = byValue'
  | .enumeration .., .enumeration .. | .object, .object | .callback, .callback => True
  | _, _ => False

/-- The second type has the shape of the first and an ancestor in place of each name. -/
inductive Descriptor.Widens (r : Repository) : Descriptor → Descriptor → Prop
  | basic (type : BasicType) (pointer : Bool) : Widens r (.basic type pointer) (.basic type pointer)
  | named {type type' : NamedType} {name ancestor : String} (pointer : Bool)
      (alike : type.Alike type') (derives : r.Derives name ancestor) :
      Widens r (.named type name pointer) (.named type' ancestor pointer)
  | array {element element' : Descriptor} (mode : ArrayLength) (form : ArrayForm) (pointer : Bool)
      (inner : Widens r element element') :
      Widens r (.array element mode form pointer) (.array element' mode form pointer)
  | list {element element' : Descriptor} (singlyLinked pointer : Bool)
      (inner : Widens r element element') :
      Widens r (.list element singlyLinked pointer) (.list element' singlyLinked pointer)
  | hash {key key' value value' : Descriptor} (pointer : Bool) (inner : Widens r key key')
      (inner' : Widens r value value') :
      Widens r (.hash key value pointer) (.hash key' value' pointer)

namespace Descriptor.Widens

variable {r : Repository} {d d' : Descriptor} {v : Value} {nullable : Bool}

theorem isBoolean_eq (widens : Widens r d d') : isBoolean d' = isBoolean d := by
  cases widens <;> rfl

theorem acceptsNull_eq (widens : Widens r d d') : d'.acceptsNull = d.acceptsNull := by
  cases widens with
  | @named type type' name ancestor pointer alike derives =>
    cases type <;> cases type' <;> cases alike <;> rfl
  | _ => rfl

theorem isInstance_of_derives {type type' : NamedType} {name ancestor : String} {pointer : Bool}
    {w : Wrapper} (shallow : r.Shallow) (derives : r.Derives name ancestor)
    (instanceOf : isInstance r (.named type name pointer) w = true) :
    isInstance r (.named type' ancestor pointer) w = true := by
  simp only [isInstance, name?, Option.any_some, shallow.isA_iff_derives] at instanceOf ⊢
  exact instanceOf.trans derives

/-- Null is accepted by the shape alone. -/
theorem canConvert_of_some (widens : Widens r d d') (plain : isBoolean d = false)
    (some : v.isNullish = false → canConvert r d v nullable = true →
      canConvert r d' v nullable = true)
    (accepted : canConvert r d v nullable = true) : canConvert r d' v nullable = true := by
  cases nullish : v.isNullish with
  | false => exact some nullish accepted
  | true =>
    rw [canConvert_nullish (by rw [nullish, plain]; rfl), ← widens.acceptsNull_eq] at accepted
    rwa [canConvert_nullish (by rw [nullish, widens.isBoolean_eq, plain]; rfl)]

/-- What a type accepts is accepted where ancestors stand in place of its names. -/
theorem canConvert_of_widens (shallow : r.Shallow) (widens : Widens r d d')
    (accepted : canConvert r d v nullable = true) : canConvert r d' v nullable = true := by
  induction widens generalizing v nullable with
  | basic type pointer => exact accepted
  | @named type type' name ancestor pointer alike derives =>
    refine canConvert_of_some (.named pointer alike derives) rfl (fun some accepted => ?_) accepted
    cases type <;> cases type' <;> cases alike <;>
      simp only [canConvert, some, Bool.false_and, Bool.false_eq_true, if_false] at accepted ⊢ <;>
      try exact accepted
    all_goals
      rw [Option.any_eq_true] at accepted ⊢
      obtain ⟨w, wrapped, instanceOf⟩ := accepted
      exact ⟨w, wrapped, isInstance_of_derives shallow derives instanceOf⟩
  | array mode form pointer inner ih =>
    refine canConvert_of_some (.array mode form pointer inner) rfl (fun some accepted => ?_)
      accepted
    simp only [canConvert, some, Bool.false_and, Bool.false_eq_true, if_false] at accepted ⊢
    cases v with
    | array items =>
      simp only [Bool.and_eq_true, List.all_eq_true] at accepted ⊢
      exact ⟨accepted.1, fun item listed => ih (accepted.2 item listed)⟩
    | _ => cases accepted
  | list singlyLinked pointer inner ih =>
    refine canConvert_of_some (.list singlyLinked pointer inner) rfl (fun some accepted => ?_)
      accepted
    simp only [canConvert, some, Bool.false_and, Bool.false_eq_true, if_false] at accepted ⊢
    cases v with
    | array items =>
      simp only [List.all_eq_true] at accepted ⊢
      exact fun item listed => ih (accepted item listed)
    | _ => cases accepted
  | hash pointer inner inner' =>
    refine canConvert_of_some (.hash pointer inner inner') rfl (fun some accepted => ?_) accepted
    simp only [canConvert, some, Bool.false_and, Bool.false_eq_true, if_false] at accepted

end Descriptor.Widens

namespace Repository

/-- Subtyping. A type is an instance of exactly the names that at most 63 links to a parent lead to.
Where no chain of parents is longer, that is reflexive and transitive, and what the argument check
accepts for a type it accepts for every type of the same shape with ancestors in place of its names,
wrappers and containers of them alike. -/
theorem isA_ancestors (r : Repository) :
    (∀ name ancestor, r.isA name ancestor = true ↔
      ∃ links ≤ 63, r.Climbs links name ancestor) ∧
    (r.Shallow →
      (∀ name, r.isA name name = true) ∧
      (∀ name between ancestor, r.isA name between = true → r.isA between ancestor = true →
        r.isA name ancestor = true) ∧
      ∀ d d' v nullable, Descriptor.Widens r d d' → canConvert r d v nullable = true →
        canConvert r d' v nullable = true) := by
  refine ⟨fun _ _ => isA_iff_climbs, fun shallow => ⟨fun name => ?_, ?_, ?_⟩⟩
  · exact isA_iff_climbs.2 ⟨0, Nat.zero_le _, .stay name⟩
  · intro name between ancestor first second
    rw [shallow.isA_iff_derives] at first second ⊢
    exact first.trans second
  · intro d d' v nullable widens accepted
    exact widens.canConvert_of_widens shallow accepted

/-- A button is a widget, and that an object whose own entry was never loaded. -/
theorem isA_ancestors_widgets :
    let widget : EntryRecord :=
      { namespaceName := "T", name := "Widget", kind := .object, parent := some "G.Object" }
    let button : EntryRecord :=
      { namespaceName := "T", name := "Button", kind := .object, parent := some "T.Widget" }
    let r := (initial.insertEntry widget).insertEntry button
    let w : Value := .object ⟨0, 16, "T.Button", true⟩
    r.Shallow ∧ canConvert r (.named .object "T.Widget" true) w false = true ∧
      Descriptor.Widens r (.named .object "T.Widget" true) (.named .object "G.Object" true) ∧
      canConvert r (.named .object "G.Object" true) w false = true := by
  intro widget button r w
  have parents : ∀ name parent, r.parent? name = some parent →
      parent = "T.Widget" ∨ parent = "G.Object" := by
    intro name parent link
    rcases parent?_insertEntry link with same | link
    · exact .inl (Option.some.inj same).symm
    rcases parent?_insertEntry link with same | link
    · exact .inr (Option.some.inj same).symm
    rcases parent?_insertEntry link with same | link
    · cases same
    · obtain ⟨found, run, -⟩ := Option.bind_eq_some_iff.1 link
      obtain ⟨⟨ns, rest⟩, -, run⟩ := Option.bind_eq_some_iff.1 run
      cases run
  have widgetParent : r.parent? "T.Widget" = some "G.Object" := by decide +kernel
  have objectParent : r.parent? "G.Object" = none := by decide +kernel
  have shallow : r.Shallow := by
    apply shallow_of_height fun name =>
      if name = "G.Object" then 0 else if name = "T.Widget" then 1 else 2
    · intro name
      split
      · decide
      · split <;> decide
    · intro name parent link
      have below : name ≠ "G.Object" := by
        rintro rfl
        simp [objectParent] at link
      rcases parents name parent link with rfl | rfl
      · have above : name ≠ "T.Widget" := by
          rintro rfl
          simp [widgetParent] at link
        simp [below, above]
      · rw [if_pos rfl, if_neg below]
        split <;> decide
  have accepted : canConvert r (.named .object "T.Widget" true) w false = true := by decide +kernel
  have widens : Descriptor.Widens r (.named .object "T.Widget" true)
      (.named .object "G.Object" true) :=
    .named true trivial ⟨1, .step widgetParent (.stay _)⟩
  exact ⟨shallow, accepted, widens, ((isA_ancestors r).2 shallow).2.2 _ _ w false widens accepted⟩

end Repository

end ForeignCall
