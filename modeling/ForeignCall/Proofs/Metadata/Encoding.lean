import ForeignCall.Metadata.Encoding
import ForeignCall.Proofs.Json.Text
import ForeignCall.Proofs.Repository.Classification
import Mathlib.Data.List.Forall2

/-!
Records come back from JSON as they were.

A record is an object with a value for some of its fields. The field names of a record are
distinct, so each field is read from the value it was written as, and what was left out is what a
missing field stands for. Numbers have to fit a word, and readers that limit the nesting have to have
room for what was written; nothing else can keep a record from coming back.
-/

set_option autoImplicit false

namespace ForeignCall

/-! ### Nesting -/

namespace Json

@[simp] theorem depth_text (s : String) : (text s).depth = 0 := by
  rw [text, depth] <;> exact nofun

@[simp] theorem depth_ofNat (n : Nat) : (ofNat n).depth = 0 := by
  rw [ofNat, depth] <;> exact nofun

@[simp] theorem depth_bool (b : Bool) : (bool b).depth = 0 := by
  rw [depth] <;> exact nofun

theorem depthOfItems_le_iff {items : List Json} {room : Nat} :
    depthOfItems items ≤ room ↔ ∀ j ∈ items, j.depth ≤ room := by
  induction items with
  | nil => simp [depthOfItems]
  | cons j rest ih => rw [depthOfItems, Nat.max_le, ih, List.forall_mem_cons]

theorem depthOfMembers_le_iff {members : List (Option String × Json)} {room : Nat} :
    depthOfMembers members ≤ room ↔ ∀ m ∈ members, m.2.depth ≤ room := by
  induction members with
  | nil => simp [depthOfMembers]
  | cons m rest ih => rw [depthOfMembers, Nat.max_le, ih, List.forall_mem_cons]

end Json

/-! ### Fields of an object -/

namespace Encoding

variable {α β : Type} {names : List String} {values : List (Option Json)} {name : String}
  {value : Option Json}

/-- The members of an object that has a value for some of the fields. -/
def members (names : List String) (values : List (Option Json)) : List (String × Json) :=
  (names.zip values).filterMap fun (name, value) => value.map (name, ·)

@[simp] theorem members_nil : members [] [] = [] := rfl

@[simp] theorem present_some (j : Json) : present name (some j) id = [(name, j)] := rfl

@[simp] theorem present_map (a : Option α) (write : α → Json) :
    present name (a.map write) id = present name a write := by
  cases a <;> rfl

/-- The array of what is listed, left out if nothing is. -/
def listed (items : List Json) : Option Json := if items.isEmpty then none else some (.array items)

@[simp] theorem present_listed (items : List Json) :
    present name (listed items) id = nonempty name items := by
  cases items <;> rfl

theorem members_cons (name : String) (value : Option Json) :
    members (name :: names) (value :: values) = present name value id ++ members names values := by
  cases value <;> rfl

theorem filter_members_of_not_mem (other : name ∉ names) :
    (members names values).filter (·.1 == name) = [] := by
  induction names generalizing values with
  | nil => rfl
  | cons n names ih =>
    obtain ⟨differs, other⟩ := not_or.1 (mt List.mem_cons.2 other)
    cases values with
    | nil => rfl
    | cons v values =>
      rw [members_cons, List.filter_append, ih other]
      cases v <;> simp [present, Ne.symm differs]

theorem filter_members (distinct : names.Nodup) (listed : (name, value) ∈ names.zip values) :
    (members names values).filter (·.1 == name) = present name value id := by
  induction names generalizing values with
  | nil => cases listed
  | cons n names ih =>
    obtain ⟨fresh, distinct⟩ := List.nodup_cons.1 distinct
    cases values with
    | nil => cases listed
    | cons v values =>
      rw [members_cons, List.filter_append]
      rcases List.mem_cons.1 listed with same | later
      · obtain ⟨rfl, rfl⟩ := Prod.mk.injEq .. ▸ same
        rw [filter_members_of_not_mem fresh]
        cases value <;> simp [present]
      · have differs : n ≠ name := fun same => fresh (same ▸ (List.of_mem_zip later).1)
        rw [ih distinct later]
        cases v <;> simp [present, differs]

theorem mapM_eq_some_of_forall₂ {f : α → Option β} {as : List α} {bs : List β}
    (each : List.Forall₂ (fun a b => f a = some b) as bs) : as.mapM f = some bs := by
  induction each with
  | nil => rfl
  | cons first _ ih => simp [List.mapM_cons, first, ih]

/-- The fields of an object are read as they were written. -/
theorem fields?_record (distinct : names.Nodup) (length : names.length = values.length) :
    fields? names (.record (members names values)) = some values := by
  have named : ((members names values).map fun m => (some m.1, m.2)).any (·.1.isNone) = false := by
    simp
  change (if ((members names values).map fun m => (some m.1, m.2)).any (·.1.isNone) then none
    else names.mapM _) = _
  rw [named, if_neg Bool.false_ne_true]
  -- The names are distinct, so at most one member has the name of a field.
  refine mapM_eq_some_of_forall₂ (List.forall₂_iff_zip.2 ⟨length, fun {name value} listed => ?_⟩)
  have found : ((members names values).map fun m => (some m.1, m.2)).filter (·.1 == some name) =
      (present name value id).map fun m => (some m.1, m.2) := by
    rw [← filter_members distinct listed, List.filter_map]
    rfl
  rw [found]
  cases value <;> rfl

theorem forall_members_iff (length : names.length = values.length) {P : Json → Prop} :
    (∀ m ∈ members names values, P m.2) ↔ ∀ value ∈ values, ∀ j ∈ value, P j := by
  induction names generalizing values with
  | nil =>
    cases values with
    | nil => simp [members]
    | cons value values => cases length
  | cons name names ih =>
    cases values with
    | nil => cases length
    | cons value values =>
      rw [members_cons, List.forall_mem_append, List.forall_mem_cons, ih (Nat.succ.inj length)]
      cases value <;> simp [present]

theorem depth_record_le_iff (length : names.length = values.length) {room : Nat} :
    (Json.record (members names values)).depth ≤ room + 1 ↔
      ∀ value ∈ values, ∀ j ∈ value, j.depth ≤ room := by
  rw [← forall_members_iff length]
  simp only [Json.record, Json.depth, Nat.add_le_add_iff_right, Json.depthOfMembers_le_iff,
    List.forall_mem_map]

/-! ### Values of fields -/

@[simp] theorem required_some (read : Json → Option α) (j : Json) :
    required read (some j) = read j := rfl

@[simp] theorem defaulted_some (default : α) (read : Json → Option α) (j : Json) :
    defaulted default read (some j) = read j := rfl

@[simp] theorem readString_text (s : String) : readString (.text s) = some s := rfl

@[simp] theorem readBool_bool (b : Bool) : readBool (.bool b) = some b := rfl

@[simp] theorem readWord_text (ofWord? : String → Option α) (room : Nat) (s : String) :
    readWord ofWord? room (.text s) = ofWord? s := rfl

theorem readNat_ofNat_iff {n m : Nat} : readNat (.ofNat n) = some m ↔ m = n ∧ n < UInt64.size := by
  have small : 0 ≤ (n : Int) ∧ (n : Int) < UInt64.size ↔ n < UInt64.size := by omega
  simp only [Json.ofNat, readNat, small, Int.toNat_natCast]
  by_cases fits : n < UInt64.size
  · simp [fits, eq_comm]
  · simp [fits]

theorem optional_map_iff {read : Json → Option α} {write : α → Json} {P : α → Prop} {a b : Option α}
    (reads : ∀ x ∈ a, ∀ y, read (write x) = some y ↔ y = x ∧ P x) (told : ∀ x, write x ≠ .null) :
    optional read (a.map write) = some b ↔ b = a ∧ ∀ x ∈ a, P x := by
  cases a with
  | none => simp [optional, eq_comm]
  | some x =>
    have given : optional read (some (write x)) = (read (write x)).map some := by
      unfold optional
      split
      · rename_i none
        cases none
      · rename_i null
        exact absurd (Option.some.inj null) (told x)
      · rename_i j same
        rw [Option.some.inj same]
    rw [Option.map_some, given, Option.map_eq_some_iff]
    simp only [reads x rfl, Option.mem_some_iff, forall_eq']
    constructor
    · rintro ⟨y, ⟨rfl, fits⟩, rfl⟩
      exact ⟨rfl, fits⟩
    · rintro ⟨rfl, fits⟩
      exact ⟨x, ⟨rfl, fits⟩, rfl⟩

@[simp] theorem optional_text_iff {a b : Option String} :
    optional readString (a.map .text) = some b ↔ b = a := by
  rw [optional_map_iff (P := fun _ => True) (by simp [eq_comm]) (by simp [Json.text])]
  simp

@[simp] theorem optional_nat_iff {a b : Option Nat} :
    optional readNat (a.map .ofNat) = some b ↔ b = a ∧ ∀ n ∈ a, n < UInt64.size :=
  optional_map_iff (fun _ _ _ => readNat_ofNat_iff) (by simp [Json.ofNat])

theorem optional_word_iff {ofWord? : String → Option α} {word : α → String} {room : Nat}
    {a b : Option α} (known : ∀ x, ofWord? (word x) = some x) :
    optional (readWord ofWord? room) (a.map fun x => .text (word x)) = some b ↔ b = a := by
  rw [optional_map_iff (P := fun _ => True) (by simp [known, eq_comm]) (by simp [Json.text])]
  simp

theorem plain_record (length : names.length = values.length)
    (plain : ∀ value ∈ values, ∀ j ∈ value, j.Plain) : (Json.record (members names values)).Plain :=
  .record ((forall_members_iff length).2 plain)

theorem plain_listed {items : List Json} (plain : ∀ j ∈ items, j.Plain) :
    ∀ j ∈ listed items, j.Plain := by
  unfold listed
  split
  · exact nofun
  · rintro _ ⟨⟩
    exact .array plain

/-! ### Records inside records -/

/-- What `a` is written as is read as `a` and as nothing else, if `a` fits and there is room for the
nesting of what is written. -/
def ReadsBack (read : Nat → Json → Option α) (write : α → Json) (fits : α → Prop) (a : α) : Prop :=
  ∀ room b, read room (write a) = some b ↔ b = a ∧ fits a ∧ (write a).depth ≤ room

variable {read : Nat → Json → Option α} {write : α → Json} {fits : α → Prop} {room : Nat}
  {items others : List α}

theorem readsBack_of_fields {a : α} (length : names.length = values.length)
    (written : write a = .record (members names values)) (closed : ∀ j, read 0 j = none)
    (reads : ∀ room b, read (room + 1) (.record (members names values)) = some b ↔
      b = a ∧ fits a ∧ ∀ value ∈ values, ∀ j ∈ value, j.depth ≤ room) :
    ReadsBack read write fits a := by
  intro room b
  rw [written]
  cases room with
  | zero => simp [closed, Json.record, Json.depth]
  | succ room => rw [reads, depth_record_le_iff length]

theorem ReadsBack.of_depth {a b : α} (back : ReadsBack read write fits a) :
    read (write a).depth (write a) = some b ↔ b = a ∧ fits a := by
  rw [back]
  simp

theorem ReadsBack.of_text {a b : α} (back : ReadsBack read write fits a) (plain : (write a).Plain) :
    (Json.parse? (write a).render).bind (read room) = some b ↔
      b = a ∧ fits a ∧ (write a).depth ≤ room := by
  rw [Json.parse?_render plain, Option.bind_some, back]

theorem mapM_iff (back : ∀ a ∈ items, ReadsBack read write fits a) :
    (items.map write).mapM (read room) = some others ↔
      others = items ∧ (∀ a ∈ items, fits a) ∧ ∀ a ∈ items, (write a).depth ≤ room := by
  induction items generalizing others with
  | nil => simp [eq_comm]
  | cons a rest ih =>
    obtain ⟨first, later⟩ := List.forall_mem_cons.1 back
    simp only [List.map_cons, List.mapM_cons, Option.bind_eq_bind, Option.bind_eq_some_iff,
      Option.pure_def, Option.some.injEq, first room, ih later, List.forall_mem_cons]
    constructor
    · rintro ⟨_, ⟨rfl, fits, nested⟩, _, ⟨rfl, allFit, allNested⟩, rfl⟩
      exact ⟨rfl, ⟨fits, allFit⟩, nested, allNested⟩
    · rintro ⟨rfl, ⟨fits, allFit⟩, nested, allNested⟩
      exact ⟨a, ⟨rfl, fits, nested⟩, rest, ⟨rfl, allFit, allNested⟩, rfl⟩

theorem readList_iff (back : ∀ a ∈ items, ReadsBack read write fits a) :
    readList read room (.array (items.map write)) = some others ↔
      others = items ∧ (∀ a ∈ items, fits a) ∧ (Json.array (items.map write)).depth ≤ room := by
  cases room with
  | zero => simp [readList, Json.depth]
  | succ room =>
    simp only [readList, Json.depth, Nat.add_le_add_iff_right, Json.depthOfItems_le_iff,
      List.forall_mem_map]
    exact mapM_iff back

theorem defaulted_listed_iff (back : ∀ a ∈ items, ReadsBack read write fits a) :
    defaulted [] (readList read room) (listed (items.map write)) = some others ↔
      others = items ∧ (∀ a ∈ items, fits a) ∧
        ∀ j ∈ listed (items.map write), j.depth ≤ room := by
  cases items with
  | nil => simp [defaulted, listed, eq_comm]
  | cons a rest =>
    have there : listed ((a :: rest).map write) = some (.array ((a :: rest).map write)) := rfl
    rw [there, defaulted_some, readList_iff back]
    simp only [Option.mem_some_iff, forall_eq']

end Encoding

/-! ### Words -/

@[simp] theorem Tag.ofWord?_word (t : Tag) : ofWord? t.word = some t := by
  cases t with
  | integer format =>
    obtain ⟨width, signed⟩ := format
    cases width <;> cases signed <;> decide +kernel
  | _ => decide +kernel

@[simp] theorem Kind.ofWord?_word (k : Kind) : ofWord? k.word = some k := by
  cases k <;> decide +kernel

@[simp] theorem ArrayForm.ofWord?_word (f : ArrayForm) : ofWord? f.word = some f := by
  cases f <;> decide +kernel

@[simp] theorem Direction.ofWord?_word (d : Direction) : ofWord? d.word = some d := by
  cases d <;> decide +kernel

@[simp] theorem Transfer.ofWord?_word (t : Transfer) : ofWord? t.word = some t := by
  cases t <;> decide +kernel

@[simp] theorem Scope.ofWord?_word (s : Scope) : ofWord? s.word = some s := by
  cases s <;> decide +kernel

/-! ### Types -/

namespace TypeRecord

open Encoding

/-- The value of each field that is written, in the order of the names. -/
def values (t : TypeRecord) : List (Option Json) :=
  [some (.text t.tag.word), some (.bool t.pointer), t.interface.map .text,
    listed (t.elements.map toJson), t.arrayLength.map .ofNat, t.fixedSize.map .ofNat,
    some (.bool t.zeroTerminated), some (.text t.arrayForm.word)]

theorem toJsonList_eq (types : List TypeRecord) : toJsonList types = types.map toJson := by
  induction types with
  | nil => rfl
  | cons t rest ih => rw [toJsonList, ih, List.map_cons]

theorem toJson_eq (t : TypeRecord) : t.toJson = .record (members fieldNames t.values) := by
  obtain ⟨tag, pointer, interface, elements, arrayLength, fixedSize, zeroTerminated, form⟩ := t
  rw [toJson, toJsonList_eq]
  simp [fieldNames, values, members_cons]

theorem read_of_fields {j : Json} {room : Nat}
    {tag pointer interface elements arrayLength fixedSize zeroTerminated form : Option Json}
    (found : fields? fieldNames j =
      some [tag, pointer, interface, elements, arrayLength, fixedSize, zeroTerminated, form]) :
    read (room + 1) j = (do
      return {
        tag := ← required (readWord Tag.ofWord? room) tag
        pointer := ← defaulted false readBool pointer
        interface := ← optional Encoding.readString interface
        elements := ← defaulted [] (readList read room) elements
        arrayLength := ← optional readNat arrayLength
        fixedSize := ← optional readNat fixedSize
        zeroTerminated := ← defaulted false readBool zeroTerminated
        arrayForm := ← defaulted .c (readWord ArrayForm.ofWord? room) form }) := by
  rw [read, found]
  rfl

/-- The numbers of the type, and those of the types in it, fit a word. -/
inductive Fits : TypeRecord → Prop
  | intro {t : TypeRecord} (arrayLength : ∀ n ∈ t.arrayLength, n < UInt64.size)
      (fixedSize : ∀ n ∈ t.fixedSize, n < UInt64.size) (elements : ∀ u ∈ t.elements, Fits u) :
      Fits t

theorem fits_iff {t : TypeRecord} :
    t.Fits ↔ (∀ n ∈ t.arrayLength, n < UInt64.size) ∧ (∀ n ∈ t.fixedSize, n < UInt64.size) ∧
      ∀ u ∈ t.elements, u.Fits :=
  ⟨fun ⟨arrayLength, fixedSize, elements⟩ => ⟨arrayLength, fixedSize, elements⟩,
    fun ⟨arrayLength, fixedSize, elements⟩ => ⟨arrayLength, fixedSize, elements⟩⟩

/-- Not definitional, since a type has others in it. -/
theorem eta (t : TypeRecord) :
    (⟨t.tag, t.pointer, t.interface, t.elements, t.arrayLength, t.fixedSize, t.zeroTerminated,
      t.arrayForm⟩ : TypeRecord) = t := by
  cases t
  rfl

/-- By induction on the nesting: the induction hypothesis reads the list of element types. -/
theorem readsBack (t : TypeRecord) : ReadsBack read toJson Fits t := by
  induction t using TypeRecord.induction with
  | step t ih =>
    refine readsBack_of_fields rfl t.toJson_eq (fun _ => rfl) fun room u => ?_
    have found : fields? fieldNames (.record (members fieldNames t.values)) = some t.values :=
      fields?_record (by decide) rfl
    have nested : (∀ value ∈ t.values, ∀ j ∈ value, j.depth ≤ room) ↔
        ∀ j ∈ listed (t.elements.map toJson), j.depth ≤ room := by
      simp [values]
    have reads : read (room + 1) (.record (members fieldNames t.values)) = some u ↔
        ((∀ v ∈ t.elements, v.Fits) ∧ ∀ j ∈ listed (t.elements.map toJson), j.depth ≤ room) ∧
          (∀ n ∈ t.arrayLength, n < UInt64.size) ∧ (∀ n ∈ t.fixedSize, n < UInt64.size) ∧
          t = u := by
      rw [read_of_fields found]
      simp [Option.bind_eq_some_iff, defaulted_listed_iff ih, eta]
    rw [reads, nested, fits_iff, eq_comm (a := u)]
    tauto

theorem plain_toJson (t : TypeRecord) : t.toJson.Plain := by
  induction t using TypeRecord.induction with
  | step t ih =>
    have elements : ∀ j ∈ listed (t.elements.map toJson), j.Plain :=
      plain_listed (by simpa using ih)
    rw [toJson_eq]
    exact plain_record rfl (by simpa [values] using elements)

end TypeRecord

/-! ### Arguments -/

namespace ArgumentRecord

open Encoding

def values (a : ArgumentRecord) : List (Option Json) :=
  [some (.text a.name), some a.type.toJson, some (.text a.direction.word),
    some (.text a.transfer.word), some (.bool a.nullable), some (.bool a.callerAllocates),
    a.closure.map .ofNat, a.destroy.map .ofNat, a.scope.map fun s => .text s.word]

theorem toJson_eq (a : ArgumentRecord) : a.toJson = .record (members fieldNames a.values) := by
  simp [toJson, fieldNames, values, members_cons]

/-- The positions of the argument, and the numbers of its type, fit a word. -/
@[mk_iff fits_iff]
structure Fits (a : ArgumentRecord) : Prop where
  type : a.type.Fits
  closure : ∀ n ∈ a.closure, n < UInt64.size
  destroy : ∀ n ∈ a.destroy, n < UInt64.size

theorem readsBack (a : ArgumentRecord) : ReadsBack read toJson Fits a := by
  refine readsBack_of_fields rfl a.toJson_eq (fun _ => rfl) fun room b => ?_
  have found : fields? fieldNames (.record (members fieldNames a.values)) = some a.values :=
    fields?_record (by decide) rfl
  have nested : (∀ value ∈ a.values, ∀ j ∈ value, j.depth ≤ room) ↔
      a.type.toJson.depth ≤ room := by
    simp [values]
  have reads : read (room + 1) (.record (members fieldNames a.values)) = some b ↔
      (a.type.Fits ∧ a.type.toJson.depth ≤ room) ∧ (∀ n ∈ a.closure, n < UInt64.size) ∧
        (∀ n ∈ a.destroy, n < UInt64.size) ∧ a = b := by
    rw [read, found]
    simp [values, Option.bind_eq_some_iff, a.type.readsBack room,
      optional_word_iff Scope.ofWord?_word]
  rw [reads, nested, fits_iff, eq_comm (a := b)]
  tauto

theorem plain_toJson (a : ArgumentRecord) : a.toJson.Plain := by
  rw [toJson_eq]
  exact plain_record rfl (by simp [values, a.type.plain_toJson])

end ArgumentRecord

/-! ### Callables -/

namespace CallableRecord

open Encoding

def values (c : CallableRecord) : List (Option Json) :=
  [some (.text c.namespaceName), some (.text c.name), c.container.map .text, c.symbol.map .text,
    some (.array (c.arguments.map ArgumentRecord.toJson)), some c.returnType.toJson,
    some (.text c.returnTransfer.word), some (.bool c.mayReturnNull), some (.bool c.skipReturn),
    some (.bool c.isMethod), some (.bool c.isConstructor), some (.bool c.throws)]

theorem toJson_eq (c : CallableRecord) : c.toJson = .record (members fieldNames c.values) := by
  simp [toJson, fieldNames, values, members_cons]

@[mk_iff fits_iff]
structure Fits (c : CallableRecord) : Prop where
  arguments : ∀ a ∈ c.arguments, a.Fits
  returnType : c.returnType.Fits

theorem readsBack (c : CallableRecord) : ReadsBack read toJson Fits c := by
  refine readsBack_of_fields rfl c.toJson_eq (fun _ => rfl) fun room d => ?_
  have found : fields? fieldNames (.record (members fieldNames c.values)) = some c.values :=
    fields?_record (by decide) rfl
  have arguments : ∀ a ∈ c.arguments, ReadsBack ArgumentRecord.read _ _ a :=
    fun a _ => a.readsBack
  have nested : (∀ value ∈ c.values, ∀ j ∈ value, j.depth ≤ room) ↔
      (Json.array (c.arguments.map ArgumentRecord.toJson)).depth ≤ room ∧
        c.returnType.toJson.depth ≤ room := by
    simp [values]
  have reads : read (room + 1) (.record (members fieldNames c.values)) = some d ↔
      ((∀ a ∈ c.arguments, a.Fits) ∧
          (Json.array (c.arguments.map ArgumentRecord.toJson)).depth ≤ room) ∧
        (c.returnType.Fits ∧ c.returnType.toJson.depth ≤ room) ∧ c = d := by
    rw [read, found]
    simp [values, Option.bind_eq_some_iff, c.returnType.readsBack room, readList_iff arguments]
  rw [reads, nested, fits_iff, eq_comm (a := d)]
  tauto

theorem plain_toJson (c : CallableRecord) : c.toJson.Plain := by
  have arguments : (Json.array (c.arguments.map ArgumentRecord.toJson)).Plain :=
    .array (by simpa using fun a _ => a.plain_toJson)
  rw [toJson_eq]
  exact plain_record rfl (by simp [values, arguments, c.returnType.plain_toJson])

end CallableRecord

/-! ### Entries -/

namespace EntryRecord

open Encoding

def values (e : EntryRecord) : List (Option Json) :=
  [some (.text e.namespaceName), some (.text e.name), some (.text e.kind.word), e.size.map .ofNat,
    e.storage.map fun t => .text t.word, e.typeNumber.map .ofNat, e.parent.map .text,
    listed (e.methods.map CallableRecord.toJson), e.signature.map CallableRecord.toJson]

theorem toJson_eq (e : EntryRecord) : e.toJson = .record (members fieldNames e.values) := by
  simp [toJson, fieldNames, values, members_cons]

@[mk_iff fits_iff]
structure Fits (e : EntryRecord) : Prop where
  size : ∀ n ∈ e.size, n < UInt64.size
  typeNumber : ∀ n ∈ e.typeNumber, n < UInt64.size
  methods : ∀ m ∈ e.methods, m.Fits
  signature : ∀ c ∈ e.signature, c.Fits

theorem readsBack (e : EntryRecord) : ReadsBack read toJson Fits e := by
  refine readsBack_of_fields rfl e.toJson_eq (fun _ => rfl) fun room f => ?_
  have found : fields? fieldNames (.record (members fieldNames e.values)) = some e.values :=
    fields?_record (by decide) rfl
  have methods : ∀ m ∈ e.methods, ReadsBack CallableRecord.read _ _ m := fun m _ => m.readsBack
  have signature : ∀ {c}, optional (CallableRecord.read room)
      (e.signature.map CallableRecord.toJson) = some c ↔ c = e.signature ∧
        ∀ c ∈ e.signature, c.Fits ∧ c.toJson.depth ≤ room :=
    optional_map_iff (fun c _ => c.readsBack room) fun _ => nofun
  have nested : (∀ value ∈ e.values, ∀ j ∈ value, j.depth ≤ room) ↔
      (∀ j ∈ listed (e.methods.map CallableRecord.toJson), j.depth ≤ room) ∧
        ∀ c ∈ e.signature, c.toJson.depth ≤ room := by
    simp [values]
  have reads : read (room + 1) (.record (members fieldNames e.values)) = some f ↔
      (∀ n ∈ e.size, n < UInt64.size) ∧ (∀ n ∈ e.typeNumber, n < UInt64.size) ∧
        ((∀ m ∈ e.methods, m.Fits) ∧
          ∀ j ∈ listed (e.methods.map CallableRecord.toJson), j.depth ≤ room) ∧
        (∀ c ∈ e.signature, c.Fits ∧ c.toJson.depth ≤ room) ∧ e = f := by
    rw [read, found]
    simp [values, Option.bind_eq_some_iff, optional_word_iff Tag.ofWord?_word,
      defaulted_listed_iff methods, signature]
  rw [reads, nested, fits_iff, eq_comm (a := f)]
  have both : (∀ c ∈ e.signature, c.Fits ∧ c.toJson.depth ≤ room) ↔
      (∀ c ∈ e.signature, c.Fits) ∧ ∀ c ∈ e.signature, c.toJson.depth ≤ room :=
    forall₂_and
  tauto

theorem plain_toJson (e : EntryRecord) : e.toJson.Plain := by
  have methods : ∀ j ∈ listed (e.methods.map CallableRecord.toJson), j.Plain :=
    plain_listed (by simpa using fun m _ => m.plain_toJson)
  have signature : ∀ c, e.signature = some c → c.toJson.Plain := fun c _ => c.plain_toJson
  rw [toJson_eq]
  exact plain_record rfl (by simpa [values] using ⟨methods, signature⟩)

end EntryRecord

/-- A record is read back from what it is written as, and from the text of it, as itself and as
nothing else. That takes numbers that fit a word, and room for the nesting where it is limited. -/
theorem records_come_back :
    (∀ t u : TypeRecord, (TypeRecord.ofJson? t.toJson = some u ↔ u = t ∧ t.Fits) ∧
      ∀ room, (Json.parse? t.toJson.render).bind (TypeRecord.read room) = some u ↔
        u = t ∧ t.Fits ∧ t.toJson.depth ≤ room) ∧
    (∀ a b : ArgumentRecord, (ArgumentRecord.ofJson? a.toJson = some b ↔ b = a ∧ a.Fits) ∧
      ∀ room, (Json.parse? a.toJson.render).bind (ArgumentRecord.read room) = some b ↔
        b = a ∧ a.Fits ∧ a.toJson.depth ≤ room) ∧
    (∀ c d : CallableRecord, (CallableRecord.ofJson? c.toJson = some d ↔ d = c ∧ c.Fits) ∧
      ∀ room, (Json.parse? c.toJson.render).bind (CallableRecord.read room) = some d ↔
        d = c ∧ c.Fits ∧ c.toJson.depth ≤ room) ∧
    ∀ e f : EntryRecord, (EntryRecord.ofJson? e.toJson = some f ↔ f = e ∧ e.Fits) ∧
      ∀ room, (Json.parse? e.toJson.render).bind (EntryRecord.read room) = some f ↔
        f = e ∧ e.Fits ∧ e.toJson.depth ≤ room :=
  ⟨fun t _ => ⟨t.readsBack.of_depth, fun _ => t.readsBack.of_text t.plain_toJson⟩,
    fun a _ => ⟨a.readsBack.of_depth, fun _ => a.readsBack.of_text a.plain_toJson⟩,
    fun c _ => ⟨c.readsBack.of_depth, fun _ => c.readsBack.of_text c.plain_toJson⟩,
    fun e _ => ⟨e.readsBack.of_depth, fun _ => e.readsBack.of_text e.plain_toJson⟩⟩

end ForeignCall
