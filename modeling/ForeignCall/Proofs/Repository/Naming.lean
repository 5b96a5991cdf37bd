import ForeignCall.Proofs.Repository.Loading
import Mathlib.Data.List.Nodup

/-!
Naming: what the qualified names of loaded records lead to.

Loading files every record under its own name, and writes the namespace into it and the type into its
methods. A qualified name is put together from these, and taken apart at its first dot, or its first
two; it leads back to the record if no other part than the last has a dot, and to the first of several
methods of one name.
-/

set_option autoImplicit false

namespace ForeignCall

def DotFree (s : String) : Prop := '.' ∉ s.toList

instance (s : String) : Decidable (DotFree s) := inferInstanceAs (Decidable ('.' ∉ s.toList))

theorem DotFree.bne {s : String} (dotFree : DotFree s) : ∀ c ∈ s.toList, (c != '.') = true := by
  intro c listed
  rw [bne_iff_ne]
  rintro rfl
  exact dotFree listed

/-- A name is taken apart where a dot was put behind a part without dots. -/
theorem splitAtDot?_append {s : String} (dotFree : DotFree s) (rest : String) :
    splitAtDot? (s ++ "." ++ rest) = some (s, rest) := by
  have chars : (s ++ "." ++ rest).toList = s.toList ++ '.' :: rest.toList := by
    simp [String.toList_append]
  have dropped : (s ++ "." ++ rest).toList.dropWhile (· != '.') = '.' :: rest.toList := by
    rw [chars, List.dropWhile_append_of_pos dotFree.bne]
    rfl
  have taken : (s ++ "." ++ rest).toList.takeWhile (· != '.') = s.toList := by
    rw [chars, List.takeWhile_append_of_pos dotFree.bne]
    simp
  simp only [splitAtDot?, dropped, taken, String.ofList_toList]

theorem splitAtDot?_of_dotFree {s : String} (dotFree : DotFree s) : splitAtDot? s = none := by
  have dropped : s.toList.dropWhile (· != '.') = [] := by
    rw [← List.append_nil s.toList, List.dropWhile_append_of_pos dotFree.bne]
    rfl
  simp only [splitAtDot?, dropped]

namespace Repository

variable {r : Repository} {d : Document} {ns name : String} {e : EntryRecord} {c : CallableRecord}

/-! ### Records are filed under their names -/

/-- The entry has the name that it is filed under, and its methods say where they belong. -/
structure EntryFiled (ns name : String) (e : EntryRecord) : Prop where
  name_eq : e.name = name
  namespaceName_eq : e.namespaceName = ns
  methods : ∀ m ∈ e.methods, m.namespaceName = ns ∧ m.container = some name

/-- Every record has the name that it is filed under. -/
structure Filed (r : Repository) : Prop where
  entries : ∀ ns name e, r.lookup? ns name = some e → EntryFiled ns name e
  functions : ∀ ns name c, r.function? ns name = some c → c.name = name ∧ c.namespaceName = ns

theorem entryFiled_of_entryNamed? (found : d.entryNamed? ns name = some e) :
    EntryFiled ns name e := by
  unfold Document.entryNamed? at found
  split at found
  · rename_i same
    obtain ⟨written, listed, rfl⟩ := Option.map_eq_some_iff.1 found
    rw [List.findRev?_eq_find?_reverse] at listed
    obtain rfl : written.name = name := by simpa using List.find?_some listed
    refine ⟨rfl, same, fun m method => ?_⟩
    obtain ⟨_, -, rfl⟩ := List.mem_map.1 method
    exact ⟨same, rfl⟩
  · cases found

theorem filed_of_functionNamed? (found : d.functionNamed? ns name = some c) :
    c.name = name ∧ c.namespaceName = ns := by
  unfold Document.functionNamed? at found
  split at found
  · rename_i same
    obtain ⟨written, listed, rfl⟩ := Option.map_eq_some_iff.1 found
    rw [List.findRev?_eq_find?_reverse] at listed
    obtain rfl : written.name = name := by simpa using List.find?_some listed
    exact ⟨rfl, same⟩
  · cases found

theorem Filed.load (filed : r.Filed) (d : Document) : (r.load d).Filed where
  entries ns name e found := by
    rw [lookup?_load, Option.or_eq_some_iff] at found
    rcases found with new | ⟨-, old⟩
    · exact entryFiled_of_entryNamed? new
    · exact filed.entries ns name e old
  functions ns name c found := by
    rw [function?_load, Option.or_eq_some_iff] at found
    rcases found with new | ⟨-, old⟩
    · exact filed_of_functionNamed? new
    · exact filed.functions ns name c old

theorem filed_initial : initial.Filed where
  entries ns name e found := by
    rw [lookup?, initial, insertEntry, Std.TreeMap.getElem?_insert] at found
    split at found
    · rename_i here
      obtain rfl := Std.LawfulEqCmp.eq_of_compare here
      rw [Option.bind_some, Std.TreeMap.getElem?_insert] at found
      split at found
      · rename_i called
        obtain rfl := Std.LawfulEqCmp.eq_of_compare called
        obtain rfl := Option.some.inj found
        exact ⟨rfl, rfl, fun _ listed => absurd listed List.not_mem_nil⟩
      · cases found
    · cases found
  functions ns name c found := by
    rw [function?, initial, insertEntry, Std.TreeMap.getElem?_insert] at found
    split at found <;> cases found

/-- The repositories that documents were loaded into, from the initial one on. -/
inductive Loaded : Repository → Prop
  | initial : Loaded .initial
  | text {r t : Repository} {text name : String} (before : Loaded r)
      (taken : loadText text r = .ok name t) : Loaded t

theorem Loaded.filed (loaded : r.Loaded) : r.Filed := by
  induction loaded with
  | initial => exact filed_initial
  | @text r t text name _ taken ih =>
    cases parsed : Document.parse? text with
    | none =>
      rw [loadText_of_refused r parsed] at taken
      cases taken
    | some d =>
      rw [loadText_of_parse r parsed] at taken
      cases taken
      exact ih.load d

theorem Loaded.offered (loaded : r.Loaded) (texts : List String) : (r.offered texts).Loaded := by
  induction texts generalizing r with
  | nil => exact loaded
  | cons text rest ih =>
    refine ih (r := (loadText text).last r) ?_
    cases parsed : Document.parse? text with
    | none => rwa [Action.last_of_error (loadText_of_refused r parsed)]
    | some d =>
      rw [Action.last_of_ok (loadText_of_parse r parsed)]
      exact .text loaded (loadText_of_parse r parsed)

/-! ### Names lead back -/

theorem Filed.of_mem_entries (filed : r.Filed) (listed : e ∈ r.entries ns) :
    r.lookup? ns e.name = some e ∧ EntryFiled ns e.name e := by
  obtain ⟨name, found⟩ := mem_entries_iff.1 listed
  have kept := filed.entries ns name e found
  obtain rfl := kept.name_eq
  exact ⟨found, kept⟩

theorem Filed.of_mem_functions (filed : r.Filed) (listed : c ∈ r.functions ns) :
    r.function? ns c.name = some c ∧ c.namespaceName = ns := by
  obtain ⟨name, found⟩ := mem_functions_iff.1 listed
  obtain ⟨rfl, inside⟩ := filed.functions ns name c found
  exact ⟨found, inside⟩

theorem resolve?_of_filed (filed : r.Filed) (plain : DotFree ns) (listed : e ∈ r.entries ns) :
    r.resolve? e.qualifiedName = some e := by
  obtain ⟨found, kept⟩ := filed.of_mem_entries listed
  rw [resolve?, EntryRecord.qualifiedName, kept.namespaceName_eq, splitAtDot?_append plain]
  exact found

theorem callable?_function (filed : r.Filed) (plain : DotFree ns) (listed : c ∈ r.functions ns)
    (free : c.container = none) (undotted : DotFree c.name) :
    r.callable? c.qualifiedName = some c := by
  obtain ⟨found, inside⟩ := filed.of_mem_functions listed
  have qualified : c.qualifiedName = ns ++ "." ++ c.name := by
    rw [CallableRecord.qualifiedName, free, inside]
  rw [callable?, qualified, splitAtDot?_append plain]
  dsimp only [Option.bind_eq_bind, Option.bind_some]
  rw [splitAtDot?_of_dotFree undotted]
  exact found

/-- Where a method name occurs once, the first method of the name is the one. -/
theorem find?_method {methods : List CallableRecord} {m : CallableRecord} (listed : m ∈ methods)
    (once : (methods.map (·.name)).count m.name ≤ 1) :
    methods.find? (·.name == m.name) = some m := by
  induction methods with
  | nil => cases listed
  | cons first rest ih =>
    rw [List.map_cons, List.count_cons] at once
    by_cases same : first.name = m.name
    · rcases List.mem_cons.1 listed with rfl | later
      · simp
      · have counted : 0 < (rest.map (·.name)).count m.name :=
          List.count_pos_iff.2 (List.mem_map_of_mem later)
        simp only [same, beq_self_eq_true, if_true] at once
        omega
    · have later : m ∈ rest := (List.mem_cons.1 listed).resolve_left fun is => same (is ▸ rfl)
      rw [List.find?_cons_of_neg (by simpa using same)]
      exact ih later (by omega)

theorem callable?_method (filed : r.Filed) (plain : DotFree ns) (listed : e ∈ r.entries ns)
    (undotted : DotFree e.name) {m : CallableRecord} (method : m ∈ e.methods)
    (once : (e.methods.map (·.name)).count m.name ≤ 1) :
    r.callable? m.qualifiedName = some m := by
  obtain ⟨found, kept⟩ := filed.of_mem_entries listed
  obtain ⟨inside, contained⟩ := kept.methods m method
  have qualified : m.qualifiedName = ns ++ "." ++ (e.name ++ "." ++ m.name) := by
    rw [CallableRecord.qualifiedName, contained, inside]
    simp only [String.append_assoc]
  rw [callable?, qualified, splitAtDot?_append plain]
  dsimp only [Option.bind_eq_bind, Option.bind_some]
  rw [splitAtDot?_append undotted]
  dsimp only
  rw [found]
  exact find?_method method once

/-! ### The callables of a namespace -/

/-- The functions of a namespace by their names, and the methods of its types as `Type_method`. -/
def bindable (r : Repository) (ns : String) : List (String × CallableRecord) :=
  (r.functions ns).map (fun c => (c.name, c)) ++
    (r.entries ns).flatMap fun e => e.methods.map fun m => (e.name ++ "_" ++ m.name, m)

/-- No name has a dot, no function a container and no type two methods of one name. -/
structure Plain (r : Repository) (ns : String) : Prop where
  undotted : DotFree ns
  functions : ∀ c ∈ r.functions ns, c.container = none ∧ DotFree c.name
  entries : ∀ e ∈ r.entries ns, DotFree e.name ∧ (e.methods.map (·.name)).Nodup

instance (r : Repository) (ns : String) : Decidable (r.Plain ns) :=
  decidable_of_iff
    (DotFree ns ∧ (∀ c ∈ r.functions ns, c.container = none ∧ DotFree c.name) ∧
      ∀ e ∈ r.entries ns, DotFree e.name ∧ (e.methods.map (·.name)).Nodup)
    ⟨fun ⟨undotted, functions, entries⟩ => ⟨undotted, functions, entries⟩,
      fun ⟨undotted, functions, entries⟩ => ⟨undotted, functions, entries⟩⟩

theorem mem_bindable_iff {key : String} :
    (key, c) ∈ r.bindable ns ↔
      (c ∈ r.functions ns ∧ key = c.name) ∨
        ∃ e ∈ r.entries ns, c ∈ e.methods ∧ key = e.name ++ "_" ++ c.name := by
  simp only [bindable, List.mem_append, List.mem_map, List.mem_flatMap, Prod.mk.injEq]
  constructor
  · rintro (⟨f, listed, rfl, rfl⟩ | ⟨e, listed, m, method, rfl, rfl⟩)
    · exact .inl ⟨listed, rfl⟩
    · exact .inr ⟨e, listed, method, rfl⟩
  · rintro (⟨listed, rfl⟩ | ⟨e, listed, method, rfl⟩)
    · exact .inl ⟨c, listed, rfl, rfl⟩
    · exact .inr ⟨e, listed, c, method, rfl, rfl⟩

theorem map_bindable (r : Repository) (ns : String) :
    (r.bindable ns).map (fun p => (p.1, p.2.qualifiedName)) =
      (r.functions ns).map (fun c => (c.name, c.qualifiedName)) ++
        (r.entries ns).flatMap fun e =>
          e.methods.map fun m => (e.name ++ "_" ++ m.name, m.qualifiedName) := by
  simp [bindable, List.map_flatMap, Function.comp_def]

theorem length_bindable (r : Repository) (ns : String) :
    (r.bindable ns).length =
      (r.functions ns).length + ((r.entries ns).flatMap (·.methods)).length := by
  simp [bindable, List.length_flatMap]

theorem Plain.leads_back (plain : r.Plain ns) (filed : r.Filed) {key : String}
    (listed : (key, c) ∈ r.bindable ns) : r.callable? c.qualifiedName = some c := by
  rcases mem_bindable_iff.1 listed with ⟨function, -⟩ | ⟨e, entry, method, -⟩
  · obtain ⟨free, undotted⟩ := plain.functions c function
    exact callable?_function filed plain.undotted function free undotted
  · obtain ⟨undotted, distinct⟩ := plain.entries e entry
    exact callable?_method filed plain.undotted entry undotted method
      (List.nodup_iff_count_le_one.1 distinct c.name)

/-- Where records are filed under their names, the names of what a table lists are its keys. -/
theorem nodup_names {β : Type} {t : Std.TreeMap String β} {called : β → String}
    (filed : ∀ (name : String) (v : β), t[name]? = some v → called v = name) :
    (t.values.map called).Nodup := by
  have keys : t.values.map called = t.keys := by
    rw [values_eq, ← Std.TreeMap.map_fst_toList_eq_keys, List.map_map]
    refine List.map_congr_left fun entry listed => ?_
    exact filed entry.1 entry.2 (Std.TreeMap.mem_toList_iff_getElem?_eq_some.1 listed)
  exact keys ▸ Std.TreeMap.nodup_keys

theorem Filed.nodup_entries (filed : r.Filed) (ns : String) :
    ((r.entries ns).map (·.name)).Nodup :=
  nodup_names fun name e found => by
    rw [entries_namespaceOf] at found
    exact (filed.entries ns name e found).name_eq

theorem Filed.nodup_functions (filed : r.Filed) (ns : String) :
    ((r.functions ns).map (·.name)).Nodup :=
  nodup_names fun name c found => by
    rw [functions_namespaceOf] at found
    exact (filed.functions ns name c found).1

/-- No callable of a namespace is another one: they differ in their names or their containers. -/
theorem Plain.nodup_bindable (plain : r.Plain ns) (filed : r.Filed) :
    ((r.bindable ns).map Prod.snd).Nodup := by
  have listed : (r.bindable ns).map Prod.snd =
      r.functions ns ++ (r.entries ns).flatMap (·.methods) := by
    simp [bindable, List.map_flatMap, Function.comp_def]
  rw [listed, List.nodup_append]
  refine ⟨(filed.nodup_functions ns).of_map _, ?_, ?_⟩
  · rw [List.nodup_flatMap]
    refine ⟨fun e entry => (plain.entries e entry).2.of_map _, ?_⟩
    have apart := List.pairwise_map.1 (filed.nodup_entries ns)
    refine apart.imp_of_mem fun entry entry' differ => ?_
    intro m method method'
    have within := ((filed.of_mem_entries entry).2.methods m method).2
    have within' := ((filed.of_mem_entries entry').2.methods m method').2
    exact differ (Option.some.inj (within.symm.trans within'))
  · rintro c function _ method rfl
    obtain ⟨e, entry, method⟩ := List.mem_flatMap.1 method
    have within := ((filed.of_mem_entries entry).2.methods c method).2
    rw [(plain.functions c function).1] at within
    cases within

/-- Qualified names. In a loaded repository, the names that are put together in a namespace without a
dot in its name lead back: that of an entry to the entry, that of a function without a container or a
dot to the function, and that of a method, with or without dots, to the method, if its type has no dot
and no other method of that name. -/
theorem names_lead_back (loaded : r.Loaded) (plain : DotFree ns) :
    (∀ e ∈ r.entries ns, r.resolve? e.qualifiedName = some e) ∧
    (∀ c ∈ r.functions ns, c.container = none → DotFree c.name →
      r.callable? c.qualifiedName = some c) ∧
    ∀ e ∈ r.entries ns, DotFree e.name → ∀ m ∈ e.methods,
      (e.methods.map (·.name)).count m.name ≤ 1 → r.callable? m.qualifiedName = some m :=
  ⟨fun _ listed => resolve?_of_filed loaded.filed plain listed,
    fun _ listed free undotted => callable?_function loaded.filed plain listed free undotted,
    fun _ listed undotted _ method once =>
      callable?_method loaded.filed plain listed undotted method once⟩

/-- A function, and a type with a method whose name has a dot. -/
theorem names_lead_back_method :
    let method : Json := .record [("name", .text "show.all")]
    let type : Json :=
      .record [("name", .text "W"), ("kind", .text "object"), ("methods", .array [method])]
    let function : Json := .record [("name", .text "f")]
    let text := (Json.record [("namespace", .text "T"), ("functions", .array [function]),
      ("types", .array [type])]).render
    let r := initial.offered [text]
    r.Loaded ∧ DotFree "T" ∧ ∃ e ∈ r.entries "T", ∃ c ∈ r.functions "T", ∃ m ∈ e.methods,
      DotFree e.name ∧ c.container = none ∧ DotFree c.name ∧
      (e.methods.map (·.name)).count m.name ≤ 1 ∧ r.resolve? "T.W" = some e ∧
      r.callable? "T.f" = some c ∧ r.callable? "T.W.show.all" = some m := by
  intro method type function text r
  have loaded : r.Loaded := Loaded.initial.offered [text]
  have plain : DotFree "T" := by decide
  obtain ⟨entry, function⟩ : (r.lookup? "T" "W").map (fun e => (e.name, e.qualifiedName,
        e.methods.map fun m => (m.name, m.qualifiedName))) =
        some ("W", "T.W", [("show.all", "T.W.show.all")]) ∧
      (r.function? "T" "f").map (fun c => (c.name, c.container, c.qualifiedName)) =
        some ("f", none, "T.f") := by
    decide +kernel
  obtain ⟨e, foundEntry, shown⟩ := Option.map_eq_some_iff.1 entry
  obtain ⟨c, foundFunction, shown'⟩ := Option.map_eq_some_iff.1 function
  simp only [Prod.mk.injEq, List.map_eq_singleton_iff] at shown shown'
  obtain ⟨called, qualified, m, methods, called'', qualified''⟩ := shown
  obtain ⟨called', free, qualified'⟩ := shown'
  have listed : e ∈ r.entries "T" := mem_entries_iff.2 ⟨"W", foundEntry⟩
  have listed' : c ∈ r.functions "T" := mem_functions_iff.2 ⟨"f", foundFunction⟩
  have method : m ∈ e.methods := by simp [methods]
  have undotted : DotFree e.name := called ▸ by decide
  have undotted' : DotFree c.name := called' ▸ by decide
  have once : (e.methods.map (·.name)).count m.name ≤ 1 := by simp [methods]
  obtain ⟨entries, functions, methodsOf⟩ := names_lead_back loaded plain
  refine ⟨loaded, plain, e, listed, c, listed', m, method, undotted, free, undotted', once, ?_, ?_,
    ?_⟩
  · exact qualified ▸ entries e listed
  · exact qualified' ▸ functions c listed' free undotted'
  · exact qualified'' ▸ methodsOf e listed undotted m method once

end Repository

end ForeignCall
