import ForeignCall.Json.Printer
import ForeignCall.Proofs.Outcome
import ForeignCall.Repository.Document

/-!
Loading: what documents make of a repository.

A name stands for what was defined last under it, whichever document of its namespace that was in, and
a name that a document does not define keeps what it stood for. Documents of different namespaces do
not touch each other, so that nobody can tell in which order they came, and a text that is no document
changes nothing.
-/

set_option autoImplicit false

namespace ForeignCall

/-! ### Tables by name -/

section Tables

variable {α β : Type}

theorem values_eq (t : Std.TreeMap String β) : t.values = t.toList.map Prod.snd := by
  have byModel := Std.DTreeMap.Internal.Impl.values_eq_map_snd (t := t.inner.inner)
  have listed := Std.DTreeMap.Internal.Impl.Const.toList_eq_toListModel_map (t := t.inner.inner)
  unfold Std.TreeMap.values Std.TreeMap.toList Std.DTreeMap.values Std.DTreeMap.Const.toList
  rw [byModel, listed, List.map_map]
  rfl

theorem mem_values_iff {t : Std.TreeMap String β} {v : β} :
    v ∈ t.values ↔ ∃ name : String, t[name]? = some v := by
  simp only [values_eq, List.mem_map, Prod.exists, exists_eq_right,
    Std.TreeMap.mem_toList_iff_getElem?_eq_some]

/-- Of what was put in under a name, the last stays. -/
theorem getElem?_foldl_insert (name : α → String) (value : α → β) (l : List α)
    (t : Std.TreeMap String β) (key : String) :
    (l.foldl (fun t a => t.insert (name a) (value a)) t)[key]? =
      ((l.findRev? fun a => name a == key).map value).or t[key]? := by
  induction l generalizing t with
  | nil => rfl
  | cons a rest ih =>
    rw [List.foldl_cons, ih, Std.TreeMap.getElem?_insert, List.findRev?]
    cases rest.findRev? fun a => name a == key with
    | some last => rfl
    | none =>
      by_cases same : name a = key
      · simp [same]
      · simp [same]

end Tables

namespace Document

variable {d : Document} {ns name : String}

/-- The last definition of an entry of that name, as it is filed. -/
def entryNamed? (d : Document) (ns name : String) : Option EntryRecord :=
  if d.name = ns then (d.entries.findRev? (·.name == name)).map d.ownEntry else none

/-- The last definition of a function of that name, as it is filed. -/
def functionNamed? (d : Document) (ns name : String) : Option CallableRecord :=
  if d.name = ns then (d.functions.findRev? (·.name == name)).map d.ownFunction else none

/-- The namespace with what the document defines put over it. -/
def onto (d : Document) (before : Namespace) : Namespace :=
  ⟨d.version, d.entries.foldl (fun t e => t.insert e.name (d.ownEntry e)) before.entries,
    d.functions.foldl (fun t c => t.insert c.name (d.ownFunction c)) before.functions⟩

theorem entries_onto (before : Namespace) :
    (d.onto before).entries[name]? = (d.entryNamed? d.name name).or before.entries[name]? := by
  rw [entryNamed?, if_pos rfl]
  exact getElem?_foldl_insert EntryRecord.name d.ownEntry d.entries before.entries name

theorem functions_onto (before : Namespace) :
    (d.onto before).functions[name]? =
      (d.functionNamed? d.name name).or before.functions[name]? := by
  rw [functionNamed?, if_pos rfl]
  exact getElem?_foldl_insert CallableRecord.name d.ownFunction d.functions before.functions name

end Document

namespace Repository

variable {r r' : Repository} {d d' : Document} {ns name text : String}

theorem entries_namespaceOf (r : Repository) (ns name : String) :
    (r.namespaceOf ns).entries[name]? = r.lookup? ns name := by
  rw [namespaceOf, lookup?, Std.TreeMap.getD_eq_getD_getElem?]
  cases r.namespaces[ns]? <;> rfl

theorem functions_namespaceOf (r : Repository) (ns name : String) :
    (r.namespaceOf ns).functions[name]? = r.function? ns name := by
  rw [namespaceOf, function?, Std.TreeMap.getD_eq_getD_getElem?]
  cases r.namespaces[ns]? <;> rfl

theorem mem_entries_iff {e : EntryRecord} :
    e ∈ r.entries ns ↔ ∃ name, r.lookup? ns name = some e := by
  simp only [entries, mem_values_iff, entries_namespaceOf]

theorem mem_functions_iff {c : CallableRecord} :
    c ∈ r.functions ns ↔ ∃ name, r.function? ns name = some c := by
  simp only [functions, mem_values_iff, functions_namespaceOf]

/-! ### One document -/

theorem namespaces_load (r : Repository) (d : Document) (ns : String) :
    (r.load d).namespaces[ns]? =
      if d.name = ns then some (d.onto (r.namespaceOf ns)) else r.namespaces[ns]? := by
  simp only [load, Std.TreeMap.getElem?_insert, Std.LawfulEqCmp.compare_eq_iff_eq]
  split
  · rename_i same
    rw [← same]
    rfl
  · rfl

theorem lookup?_load (r : Repository) (d : Document) (ns name : String) :
    (r.load d).lookup? ns name = (d.entryNamed? ns name).or (r.lookup? ns name) := by
  by_cases here : d.name = ns
  · subst here
    rw [lookup?, namespaces_load, if_pos rfl, Option.bind_some, Document.entries_onto,
      entries_namespaceOf]
  · rw [lookup?, namespaces_load, if_neg here, Document.entryNamed?, if_neg here]
    rfl

theorem function?_load (r : Repository) (d : Document) (ns name : String) :
    (r.load d).function? ns name = (d.functionNamed? ns name).or (r.function? ns name) := by
  by_cases here : d.name = ns
  · subst here
    rw [function?, namespaces_load, if_pos rfl, Option.bind_some, Document.functions_onto,
      functions_namespaceOf]
  · rw [function?, namespaces_load, if_neg here, Document.functionNamed?, if_neg here]
    rfl

theorem namespaceOf_load (other : d.name ≠ ns) : (r.load d).namespaceOf ns = r.namespaceOf ns := by
  rw [namespaceOf, namespaceOf, Std.TreeMap.getD_eq_getD_getElem?, Std.TreeMap.getD_eq_getD_getElem?,
    namespaces_load, if_neg other]

/-! ### Documents of different namespaces -/

/-- No question is answered differently by the one and by the other. -/
structure Agrees (r r' : Repository) : Prop where
  namespaces : r.namespaceNames = r'.namespaceNames
  versions : ∀ ns, r.version? ns = r'.version? ns
  lookups : ∀ ns name, r.lookup? ns name = r'.lookup? ns name
  lookupsOfFunctions : ∀ ns name, r.function? ns name = r'.function? ns name
  entries : ∀ ns, r.entries ns = r'.entries ns
  functions : ∀ ns, r.functions ns = r'.functions ns

theorem agrees_of_getElem? (same : ∀ ns : String, r.namespaces[ns]? = r'.namespaces[ns]?) :
    r.Agrees r' := by
  have equiv : r.namespaces.Equiv r'.namespaces := .of_forall_constGet?_eq same
  have alike (ns : String) : r.namespaceOf ns = r'.namespaceOf ns := equiv.getD_eq
  exact {
    namespaces := equiv.keys_eq
    versions := fun ns => by rw [version?, version?, same]
    lookups := fun ns name => by rw [lookup?, lookup?, same]
    lookupsOfFunctions := fun ns name => by rw [function?, function?, same]
    entries := fun ns => by rw [Repository.entries, Repository.entries, alike]
    functions := fun ns => by rw [Repository.functions, Repository.functions, alike] }

theorem load_agrees (r : Repository) (apart : d.name ≠ d'.name) :
    ((r.load d).load d').Agrees ((r.load d').load d) := by
  apply agrees_of_getElem?
  intro ns
  simp only [namespaces_load]
  by_cases first : d.name = ns
  · subst first
    rw [if_neg apart.symm, if_pos rfl, if_pos rfl, namespaceOf_load apart.symm]
  · by_cases second : d'.name = ns
    · rw [if_pos second, if_neg first, if_pos second, namespaceOf_load first]
    · rw [if_neg second, if_neg first, if_neg first, if_neg second]

/-! ### Histories -/

theorem loadText_of_parse (r : Repository) (parsed : Document.parse? text = some d) :
    loadText text r = .ok d.name (r.load d) := by
  rw [loadText, parsed]
  rfl

theorem loadText_of_refused (r : Repository) (refused : Document.parse? text = none) :
    loadText text r = .error (.error .invalid) r := by
  rw [loadText, refused]
  rfl

/-- The repository after texts were offered to it in order, whether or not it took them. -/
def offered (r : Repository) (texts : List String) : Repository :=
  texts.foldl (fun r text => (loadText text).last r) r

/-- Only the documents among the texts matter. -/
theorem offered_eq (r : Repository) (texts : List String) :
    r.offered texts = (texts.filterMap Document.parse?).foldl load r := by
  induction texts generalizing r with
  | nil => rfl
  | cons text rest ih =>
    rw [offered, List.foldl_cons, List.filterMap_cons]
    cases parsed : Document.parse? text with
    | none =>
      rw [Action.last_of_error (loadText_of_refused r parsed)]
      exact ih r
    | some d =>
      rw [Action.last_of_ok (loadText_of_parse r parsed)]
      exact ih (r.load d)

/-- If every document puts its own answer before the one from earlier, a history gives the answer of
the last document that has one. -/
theorem answer_foldl_load {β : Type} (answer : Repository → Option β) (own : Document → Option β)
    (step : ∀ r d, answer (r.load d) = (own d).or (answer r)) (r : Repository)
    (docs : List Document) :
    answer (docs.foldl load r) = (docs.findSomeRev? own).or (answer r) := by
  induction docs generalizing r with
  | nil => rfl
  | cons d rest ih =>
    rw [List.foldl_cons, ih, step, List.findSomeRev?]
    cases rest.findSomeRev? own with
    | some last => rfl
    | none => rfl

/-- A name stands for its last definition in a history, or for what it stood for before. -/
theorem lookup?_offered (r : Repository) (texts : List String) (ns name : String) :
    (r.offered texts).lookup? ns name =
      ((texts.filterMap Document.parse?).findSomeRev? (·.entryNamed? ns name)).or
        (r.lookup? ns name) := by
  rw [offered_eq]
  exact answer_foldl_load (·.lookup? ns name) (·.entryNamed? ns name)
    (fun r d => lookup?_load r d ns name) r _

theorem function?_offered (r : Repository) (texts : List String) (ns name : String) :
    (r.offered texts).function? ns name =
      ((texts.filterMap Document.parse?).findSomeRev? (·.functionNamed? ns name)).or
        (r.function? ns name) := by
  rw [offered_eq]
  exact answer_foldl_load (·.function? ns name) (·.functionNamed? ns name)
    (fun r d => function?_load r d ns name) r _

/-- Loading documents. Two documents of different namespaces can be loaded in either order: no question
is answered differently. After two documents, of one namespace or not, every name of an entry and of a
function stands for its last definition, in the second document or else in the first, and a name that
neither defines for what it stood for before. A text that is no document is refused and leaves the
repository as it was. -/
theorem loading_documents (r : Repository) :
    (∀ text text' d d', Document.parse? text = some d → Document.parse? text' = some d' →
      d.name ≠ d'.name → (r.offered [text, text']).Agrees (r.offered [text', text])) ∧
    (∀ text text' d d', Document.parse? text = some d → Document.parse? text' = some d' →
      ∀ ns name,
        (r.offered [text, text']).lookup? ns name =
          ((d'.entryNamed? ns name).or (d.entryNamed? ns name)).or (r.lookup? ns name) ∧
        (r.offered [text, text']).function? ns name =
          ((d'.functionNamed? ns name).or (d.functionNamed? ns name)).or (r.function? ns name)) ∧
    (∀ text, Document.parse? text = none → loadText text r = .error (.error .invalid) r) := by
  have pair {text text' : String} {d d' : Document} (parsed : Document.parse? text = some d)
      (parsed' : Document.parse? text' = some d') :
      [text, text'].filterMap Document.parse? = [d, d'] := by
    simp [parsed, parsed']
  refine ⟨?_, ?_, fun _ refused => loadText_of_refused r refused⟩
  · intro text text' d d' parsed parsed' apart
    rw [offered_eq, offered_eq, pair parsed parsed', pair parsed' parsed]
    exact load_agrees r apart
  · intro text text' d d' parsed parsed' ns name
    rw [lookup?_offered, function?_offered, pair parsed parsed']
    simp only [List.findSomeRev?]
    constructor
    · cases d'.entryNamed? ns name <;> cases d.entryNamed? ns name <;> rfl
    · cases d'.functionNamed? ns name <;> cases d.functionNamed? ns name <;> rfl

/-- Functions `f` and `g` of a namespace, an entry of another one, a later `f` that throws, and a text
without a namespace. -/
theorem loading_documents_functions :
    let record (ns : String) (field : String) (items : List Json) : String :=
      (Json.record [("namespace", .text ns), (field, .array items)]).render
    let named (name : String) : Json := .record [("name", .text name)]
    let functions := record "T" "functions" [named "f", named "g"]
    let entries := record "U" "types" [.record [("name", .text "W"), ("kind", .text "object")]]
    let later := record "T" "functions" [.record [("name", .text "f"), ("throws", .bool true)]]
    let r := initial.offered [functions, later]
    (initial.offered [functions, entries]).Agrees (initial.offered [entries, functions]) ∧
      (r.function? "T" "f").map (·.throws) = some true ∧
      (r.function? "T" "g").map (·.throws) = some false ∧
      loadText "[]" r = .error (.error .invalid) r := by
  intro record named functions entries later r
  obtain ⟨parsed, parsed', parsed''⟩ : (Document.parse? functions).isSome = true ∧
      (Document.parse? entries).isSome = true ∧ (Document.parse? later).isSome = true := by
    decide +kernel
  let d := (Document.parse? functions).get parsed
  let d' := (Document.parse? later).get parsed''
  obtain ⟨apart, replaced, kept⟩ : d.name ≠ ((Document.parse? entries).get parsed').name ∧
      (((d'.functionNamed? "T" "f").or (d.functionNamed? "T" "f")).or
        (initial.function? "T" "f")).map (·.throws) = some true ∧
      (((d'.functionNamed? "T" "g").or (d.functionNamed? "T" "g")).or
        (initial.function? "T" "g")).map (·.throws) = some false := by
    decide +kernel +revert
  have refused : Document.parse? "[]" = none := Option.isNone_iff_eq_none.1 (by decide +kernel)
  have answers := (loading_documents initial).2.1 functions later d d'
    (Option.some_get parsed).symm (Option.some_get parsed'').symm "T"
  refine ⟨?_, ?_, ?_, (loading_documents r).2.2 "[]" refused⟩
  · exact (loading_documents initial).1 functions entries _ _ (Option.some_get parsed).symm
      (Option.some_get parsed').symm apart
  · rw [(answers "f").2, replaced]
  · rw [(answers "g").2, kept]

end Repository

end ForeignCall
