import ForeignCall.Descriptor
import ForeignCall.Proofs.Call.Plan

/-!
Classification: which type occurrences can be converted, and what their descriptors say.

An occurrence is turned down for a container without an element type, for a name that is missing or
does not lead to the entry of a type, and for an enumeration that is not stored as an integer. Only
the first element types of a container count. A descriptor is the tree of its occurrence: the same
containers, with entries in place of names.
-/

set_option autoImplicit false

namespace ForeignCall

def BasicType.tag : BasicType → Tag
  | .void => .void
  | .boolean => .boolean
  | .integer format => .integer format
  | .float => .float
  | .double => .double
  | .gtype => .gtype
  | .unichar => .unichar
  | .string false => .utf8
  | .string true => .filename
  | .error => .error

/-- The tags whose types are made of others or have a name. -/
def Tag.isComposite : Tag → Bool
  | .array | .glist | .gslist | .ghash | .interface => true
  | _ => false

/-- The entry is that of a type, and of an enumeration only if it is stored as an integer. -/
def EntryRecord.IsType (e : EntryRecord) : Prop :=
  match e.kind with
  | .struct | .union | .boxed | .object | .interface | .callback => True
  | .enum | .flags => ∀ tag, e.storage = some tag → ∃ format, tag = .integer format
  | _ => False

/-- The entry is that of the named type; an enumeration that declares no storage has 32 bits. -/
inductive EntryRecord.Names (e : EntryRecord) : NamedType → Prop
  | record (kind : e.kind = .struct ∨ e.kind = .union) : Names e (.structured e.size true)
  | boxed (kind : e.kind = .boxed) : Names e (.structured e.size false)
  | object (kind : e.kind = .object ∨ e.kind = .interface) : Names e .object
  | callback (kind : e.kind = .callback) : Names e .callback
  | enumeration {format : IntFormat} (kind : e.kind = .enum ∨ e.kind = .flags)
      (stored : e.storage.getD (.integer ⟨.w32, false⟩) = .integer format) :
      Names e (.enumeration format (e.kind == .flags))

/-- How the length of an array of the occurrence is known: a linked argument goes before a declared
size, and that before a terminator. -/
structure TypeRecord.Counts (t : TypeRecord) (length : ArrayLength) : Prop where
  linked : ∀ position, t.arrayLength = some position → length = .parameter position
  declared : t.arrayLength = none → ∀ count, t.fixedSize = some count → length = .fixed count
  terminated : t.arrayLength = none → t.fixedSize = none → t.zeroTerminated = true →
    length = .zeroTerminated
  untold : t.arrayLength = none → t.fixedSize = none → t.zeroTerminated = false →
    length = .unspecified

namespace Repository

/-- The occurrences whose containers have their element types and whose names lead to types. -/
inductive Classifiable (r : Repository) : TypeRecord → Prop
  | basic {t : TypeRecord} (plain : t.tag.isComposite = false) : Classifiable r t
  | container {t element : TypeRecord} {rest : List TypeRecord}
      (tag : t.tag = .array ∨ t.tag = .glist ∨ t.tag = .gslist)
      (elements : t.elements = element :: rest) (first : Classifiable r element) : Classifiable r t
  | hash {t key value : TypeRecord} {rest : List TypeRecord} (tag : t.tag = .ghash)
      (elements : t.elements = key :: value :: rest) (first : Classifiable r key)
      (second : Classifiable r value) : Classifiable r t
  | interface {t : TypeRecord} {name : String} {e : EntryRecord} (tag : t.tag = .interface)
      (named : t.interface = some name) (found : r.resolve? name = some e) (type : e.IsType) :
      Classifiable r t

/-- The descriptor has the tree of the occurrence, with entries in place of names. -/
inductive Describes (r : Repository) : TypeRecord → Descriptor → Prop
  | basic {t : TypeRecord} {type : BasicType} (tag : t.tag = type.tag) :
      Describes r t (.basic type t.pointer)
  | array {t element : TypeRecord} {rest : List TypeRecord} {d : Descriptor} {length : ArrayLength}
      (tag : t.tag = .array) (elements : t.elements = element :: rest)
      (first : Describes r element d) (counts : t.Counts length) :
      Describes r t (.array d length t.arrayForm t.pointer)
  | list {t element : TypeRecord} {rest : List TypeRecord} {d : Descriptor} {singlyLinked : Bool}
      (tag : t.tag = if singlyLinked then .gslist else .glist)
      (elements : t.elements = element :: rest) (first : Describes r element d) :
      Describes r t (.list d singlyLinked t.pointer)
  | hash {t key value : TypeRecord} {rest : List TypeRecord} {d d' : Descriptor}
      (tag : t.tag = .ghash) (elements : t.elements = key :: value :: rest)
      (first : Describes r key d) (second : Describes r value d') :
      Describes r t (.hash d d' t.pointer)
  | interface {t : TypeRecord} {name : String} {e : EntryRecord} {type : NamedType}
      (tag : t.tag = .interface) (named : t.interface = some name)
      (found : r.resolve? name = some e) (names : e.Names type) :
      Describes r t (.named type e.qualifiedName t.pointer)

end Repository

/-- A property holds of all occurrences if it passes from element types to their container. -/
theorem TypeRecord.induction {motive : TypeRecord → Prop}
    (step : ∀ t : TypeRecord, (∀ u ∈ t.elements, motive u) → motive t) (t : TypeRecord) :
    motive t :=
  step t fun u _ => TypeRecord.induction step u
termination_by sizeOf t
decreasing_by
  rename_i listed
  have smaller := List.sizeOf_lt_of_mem listed
  cases t
  simp only [TypeRecord.mk.sizeOf_spec] at smaller ⊢
  omega

section Entries

variable {r : Repository} {e : EntryRecord} {t : TypeRecord} {d : Descriptor} {length : ArrayLength}

theorem Tag.isComposite_eq_false_iff {tag : Tag} :
    tag.isComposite = false ↔ ∃ type : BasicType, tag = type.tag := by
  constructor
  · intro plain
    cases tag with
    | void => exact ⟨.void, rfl⟩
    | boolean => exact ⟨.boolean, rfl⟩
    | integer format => exact ⟨.integer format, rfl⟩
    | float => exact ⟨.float, rfl⟩
    | double => exact ⟨.double, rfl⟩
    | gtype => exact ⟨.gtype, rfl⟩
    | unichar => exact ⟨.unichar, rfl⟩
    | utf8 => exact ⟨.string false, rfl⟩
    | filename => exact ⟨.string true, rfl⟩
    | error => exact ⟨.error, rfl⟩
    | array | interface | glist | gslist | ghash => cases plain
  · rintro ⟨type, rfl⟩
    cases type with
    | string filename => cases filename <;> rfl
    | _ => rfl

theorem Tag.intFormat?_eq_some_iff {tag : Tag} {format : IntFormat} :
    tag.intFormat? = some format ↔ tag = .integer format := by
  cases tag <;> simp [Tag.intFormat?]

theorem EntryRecord.isType_iff : e.IsType ↔ ∃ type, e.Names type := by
  have stored : (∀ tag, e.storage = some tag → ∃ format, tag = .integer format) ↔
      ∃ format, e.storage.getD (.integer ⟨.w32, false⟩) = .integer format := by
    cases e.storage <;> simp
  constructor
  · intro isType
    rw [EntryRecord.IsType, stored] at isType
    split at isType
    case h_1 kind => exact ⟨_, .record (.inl kind)⟩
    case h_2 kind => exact ⟨_, .record (.inr kind)⟩
    case h_3 kind => exact ⟨_, .boxed kind⟩
    case h_4 kind => exact ⟨_, .object (.inl kind)⟩
    case h_5 kind => exact ⟨_, .object (.inr kind)⟩
    case h_6 kind => exact ⟨_, .callback kind⟩
    case h_7 kind =>
      obtain ⟨format, integer⟩ := isType
      exact ⟨_, .enumeration (.inl kind) integer⟩
    case h_8 kind =>
      obtain ⟨format, integer⟩ := isType
      exact ⟨_, .enumeration (.inr kind) integer⟩
    case h_9 => exact isType.elim
  · rintro ⟨type, names⟩
    rw [EntryRecord.IsType, stored]
    cases names with
    | record kind => rcases kind with kind | kind <;> rw [kind] <;> trivial
    | boxed kind => rw [kind]; trivial
    | object kind => rcases kind with kind | kind <;> rw [kind] <;> trivial
    | callback kind => rw [kind]; trivial
    | enumeration kind integer => rcases kind with kind | kind <;> rw [kind] <;> exact ⟨_, integer⟩

theorem TypeRecord.counts_iff :
    t.Counts length ↔
      length = Repository.arrayLengthOf t.arrayLength t.fixedSize t.zeroTerminated := by
  constructor
  · intro counts
    rcases linked : t.arrayLength with _ | position
    · rcases fixed : t.fixedSize with _ | count
      · cases terminated : t.zeroTerminated with
        | true => exact counts.terminated linked fixed terminated
        | false => exact counts.untold linked fixed terminated
      · exact counts.declared linked count fixed
    · exact counts.linked position linked
  · rintro rfl
    constructor <;> intros <;> simp_all [Repository.arrayLengthOf]

theorem Repository.classifyNamed_iff {interface : Option String} {pointer : Bool} :
    r.classifyNamed interface pointer = .ok d ↔
      ∃ name e type, interface = some name ∧ r.resolve? name = some e ∧ e.Names type ∧
        d = .named type e.qualifiedName pointer := by
  constructor
  · intro classified
    unfold Repository.classifyNamed at classified
    split at classified
    · cases classified
    · rename_i name
      split at classified
      · cases classified
      · rename_i e found
        suffices known : ∃ type, e.Names type ∧ d = .named type e.qualifiedName pointer by
          obtain ⟨type, names, rfl⟩ := known
          exact ⟨name, e, type, rfl, found, names, rfl⟩
        dsimp only at classified
        split at classified
        case h_4 kind | h_5 kind =>
          split at classified <;> cases classified
          rename_i format stored
          exact ⟨_, .enumeration (by simp [kind]) (Tag.intFormat?_eq_some_iff.1 stored), rfl⟩
        all_goals cases classified
        case h_1 kind => exact ⟨_, .record (.inl kind), rfl⟩
        case h_2 kind => exact ⟨_, .record (.inr kind), rfl⟩
        case h_3 kind => exact ⟨_, .boxed kind, rfl⟩
        case h_6 kind => exact ⟨_, .object (.inl kind), rfl⟩
        case h_7 kind => exact ⟨_, .object (.inr kind), rfl⟩
        case h_8 kind => exact ⟨_, .callback kind, rfl⟩
  · rintro ⟨name, e, type, rfl, found, names, rfl⟩
    unfold Repository.classifyNamed
    dsimp only
    rw [found]
    cases names with
    | record kind => rcases kind with kind | kind <;> simp only [kind]
    | boxed kind => simp only [kind]
    | object kind => rcases kind with kind | kind <;> simp only [kind]
    | callback kind => simp only [kind]
    | enumeration kind integer =>
      rcases kind with kind | kind <;> simp [kind, integer, Tag.intFormat?]

end Entries

namespace Repository

variable {r : Repository} {t : TypeRecord} {d : Descriptor}

theorem describes_of_classify (classified : r.classify t = .ok d) : r.Describes t d := by
  induction t using TypeRecord.induction generalizing d with
  | step t ih =>
    obtain ⟨tag, pointer, interface, elements, arrayLength, fixedSize, zeroTerminated, form⟩ := t
    cases tag with
    | array =>
      cases elements <;> simp only [Repository.classify] at classified
      · cases classified
      · obtain ⟨element, first, done⟩ := Except.exists_of_bind classified
        cases done
        exact .array rfl rfl (ih _ (by simp) first) (TypeRecord.counts_iff.2 rfl)
    | glist | gslist =>
      cases elements <;> simp only [Repository.classify] at classified
      · cases classified
      · obtain ⟨element, first, done⟩ := Except.exists_of_bind classified
        cases done
        exact .list rfl rfl (ih _ (by simp) first)
    | ghash =>
      rcases elements with _ | ⟨key, _ | ⟨value, rest⟩⟩ <;>
        simp only [Repository.classify] at classified
      · cases classified
      · obtain ⟨_, -, done⟩ := Except.exists_of_bind classified
        cases done
      · obtain ⟨_, first, more⟩ := Except.exists_of_bind classified
        obtain ⟨_, second, done⟩ := Except.exists_of_bind more
        cases done
        exact .hash rfl rfl (ih _ (by simp) first) (ih _ (by simp) second)
    | interface =>
      simp only [Repository.classify] at classified
      obtain ⟨name, e, type, named, found, names, rfl⟩ := classifyNamed_iff.1 classified
      exact .interface rfl named found names
    | _ =>
      simp only [Repository.classify] at classified
      cases classified
      exact .basic rfl

theorem classify_of_describes (describes : r.Describes t d) : r.classify t = .ok d := by
  induction describes with
  | @basic t type tag =>
    obtain ⟨_, _⟩ := t
    cases tag
    cases type with
    | string filename => cases filename <;> rfl
    | _ => rfl
  | @array t element rest d length tag elements _ counts ih =>
    obtain ⟨_, _⟩ := t
    cases tag
    cases elements
    rw [classify, ih, TypeRecord.counts_iff.1 counts]
    rfl
  | @list t element rest d singlyLinked tag elements _ ih =>
    obtain ⟨_, _⟩ := t
    cases elements
    cases singlyLinked <;> cases tag <;> rw [classify, ih] <;> rfl
  | @hash t key value rest d d' tag elements _ _ ih ih' =>
    obtain ⟨_, _⟩ := t
    cases tag
    cases elements
    rw [classify, ih, ih']
    rfl
  | @interface t name e type tag named found names =>
    obtain ⟨_, _⟩ := t
    cases tag
    exact classifyNamed_iff.2 ⟨name, e, type, named, found, names, rfl⟩

theorem classifiable_iff_describes : r.Classifiable t ↔ ∃ d, r.Describes t d := by
  constructor
  · intro classifiable
    induction classifiable with
    | @basic t plain =>
      obtain ⟨type, tag⟩ := Tag.isComposite_eq_false_iff.1 plain
      exact ⟨_, .basic tag⟩
    | @container t element rest tag elements first ih =>
      obtain ⟨d, described⟩ := ih
      rcases tag with tag | tag | tag
      · exact ⟨_, .array tag elements described (TypeRecord.counts_iff.2 rfl)⟩
      · exact ⟨.list d false t.pointer, .list tag elements described⟩
      · exact ⟨.list d true t.pointer, .list tag elements described⟩
    | hash tag elements first second ih ih' =>
      obtain ⟨d, described⟩ := ih
      obtain ⟨d', described'⟩ := ih'
      exact ⟨_, .hash tag elements described described'⟩
    | interface tag named found type =>
      obtain ⟨type, names⟩ := EntryRecord.isType_iff.1 type
      exact ⟨_, .interface tag named found names⟩
  · rintro ⟨d, described⟩
    induction described with
    | basic tag => exact .basic (Tag.isComposite_eq_false_iff.2 ⟨_, tag⟩)
    | array tag elements first counts ih => exact .container (.inl tag) elements ih
    | @list t element rest d singlyLinked tag elements first ih =>
      refine .container (.inr ?_) elements ih
      cases singlyLinked with
      | false => exact .inl tag
      | true => exact .inr tag
    | hash tag elements first second ih ih' => exact .hash tag elements ih ih'
    | interface tag named found names =>
      exact .interface tag named found (EntryRecord.isType_iff.2 ⟨_, names⟩)

/-- An occurrence can be converted exactly if its containers have their element types and its names
lead to types, and its descriptor is then the one that has its tree. -/
theorem classify_eq_ok_iff (r : Repository) (t : TypeRecord) :
    ((∃ d, r.classify t = .ok d) ↔ r.Classifiable t) ∧
      ∀ d, r.classify t = .ok d ↔ r.Describes t d := by
  have exact_of (d : Descriptor) : r.classify t = .ok d ↔ r.Describes t d :=
    ⟨describes_of_classify, classify_of_describes⟩
  refine ⟨?_, exact_of⟩
  rw [classifiable_iff_describes]
  exact exists_congr exact_of

example :
    let listed : TypeRecord :=
      { tag := .array, elements := [{ tag := .utf8 }], arrayLength := some 1, fixedSize := some 3 }
    r.classify listed = .ok (.array (.basic (.string false) false) (.parameter 1) .c false) := rfl

end Repository

end ForeignCall
