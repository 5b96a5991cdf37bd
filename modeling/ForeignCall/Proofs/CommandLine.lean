import ForeignCall.CommandLine
import ForeignCall.Proofs.Repository.Naming

/-!
The command line: what the check of a repository reports.

The check goes by names. It puts together the qualified name of every callable, looks that up, and
derives the plan of the callable that it finds. So it reports a callable for what its name leads to: if
the name leads back, exactly if its own plan cannot be derived, and if the name leads nowhere, never.
-/

set_option autoImplicit false

namespace ForeignCall

namespace CommandLine

open Repository

variable {r : Repository} {ns name : String} {names : List String} {fault : PlanFault}
  {c : CallableRecord}

/-! ### What is inspected -/

theorem loaded_loadFile {reader : FileReader Id} {path : String} {t : Repository}
    (loaded : r.Loaded) (read : (r.loadFile reader path).run = .ok t) : t.Loaded := by
  simp only [loadFile, Id.run_bind] at read
  split at read
  · cases read
  · rename_i text _
    cases taken : loadText text r with
    | ok name t' =>
      rw [taken] at read
      obtain rfl : t' = t := Except.ok.inj read
      exact .text loaded taken
    | error e t' =>
      rw [taken] at read
      cases read

theorem loaded_loadFiles {reader : FileReader Id} {paths : List String} {t : Repository}
    (loaded : r.Loaded) (read : (r.loadFiles reader paths).run = .ok t) : t.Loaded := by
  induction paths generalizing r with
  | nil =>
    obtain rfl : r = t := Except.ok.inj read
    exact loaded
  | cons path rest ih =>
    simp only [loadFiles, Id.run_bind] at read
    split at read
    · cases read
    · rename_i first
      exact ih (loaded_loadFile loaded first) read

/-- What the command line inspects is a loaded repository. -/
theorem loaded_loadRepository {reader : FileReader Id} {settings : Settings} {extra : List String}
    (read : (loadRepository reader settings extra).run = .ok r) : r.Loaded := by
  simp only [loadRepository, Id.run_bind] at read
  split at read
  · cases read
  · rename_i before first
    cases second : (before.loadFiles reader extra).run with
    | error e =>
      rw [Id.run_bind, second] at read
      cases read
    | ok t =>
      rw [Id.run_bind, second] at read
      obtain rfl : t = r := Except.ok.inj read
      exact loaded_loadFiles (loaded_loadFiles .initial first) second

theorem callables_perm (r : Repository) (ns : String) :
    (callables r ns).Perm ((r.bindable ns).map fun p => (p.1, p.2.qualifiedName)) := by
  rw [map_bindable]
  exact List.mergeSort_perm _ nameLe

/-- The callable is a function of one of the namespaces, or a method of a type of one. -/
def Inspected (r : Repository) (names : List String) (c : CallableRecord) : Prop :=
  ∃ ns ∈ names, c ∈ r.functions ns ∨ ∃ e ∈ r.entries ns, c ∈ e.methods

theorem inspected_iff : Inspected r names c ↔ ∃ ns ∈ names, ∃ key, (key, c) ∈ r.bindable ns := by
  simp only [Inspected, mem_bindable_iff]
  constructor
  · rintro ⟨ns, listed, function | ⟨e, entry, method⟩⟩
    · exact ⟨ns, listed, _, .inl ⟨function, rfl⟩⟩
    · exact ⟨ns, listed, _, .inr ⟨e, entry, method, rfl⟩⟩
  · rintro ⟨ns, listed, key, ⟨function, -⟩ | ⟨e, entry, method, -⟩⟩
    · exact ⟨ns, listed, .inl function⟩
    · exact ⟨ns, listed, .inr ⟨e, entry, method⟩⟩

theorem mem_names_iff : name ∈ names.flatMap (fun ns => (callables r ns).map (·.2)) ↔
    ∃ c, Inspected r names c ∧ c.qualifiedName = name := by
  have each (ns : String) : name ∈ (callables r ns).map (·.2) ↔
      ∃ key c, (key, c) ∈ r.bindable ns ∧ c.qualifiedName = name := by
    rw [((callables_perm r ns).map _).mem_iff]
    simp
  simp only [List.mem_flatMap, each, inspected_iff]
  grind

/-! ### What is reported -/

theorem mem_failures_iff : (name, fault) ∈ failures r names ↔
    name ∈ names ∧ (r.callable? name).map (Plan.derive r) = some (.error fault) := by
  rw [failures, List.mem_filterMap]
  constructor
  · rintro ⟨called, listed, shown⟩
    split at shown
    · rename_i failed
      cases shown
      exact ⟨listed, failed⟩
    · cases shown
  · rintro ⟨listed, failed⟩
    exact ⟨name, listed, by rw [failed]⟩

/-- What the check does, in terms of the callables that are inspected. -/
theorem runCheck_eq {ns : Option String} (chosen : selected r ns = .ok names) :
    ∃ outcome reports, runCommand r (.check ns) = .ok outcome ∧
      outcome.output = lines (reports.map fun (name, fault) => s!"{name}: {fault.message}") ∧
      outcome.exitCode = (if reports = [] then 0 else 1) ∧
      ∀ name fault, (name, fault) ∈ reports ↔
        (∃ c, Inspected r names c ∧ c.qualifiedName = name) ∧
          (r.callable? name).map (Plan.derive r) = some (.error fault) := by
  let called := names.flatMap fun ns => (callables r ns).map (·.2)
  let failed := failures r called
  let outcome : Outcome := ⟨if failed.isEmpty then 0 else 1,
    lines (failed.map fun (name, fault) => s!"{name}: {fault.message}"),
    lines [s!"{called.length} callables, {failed.length} failed"]⟩
  have ran : runCommand r (.check ns) = .ok outcome := by
    rw [runCommand, runCheck, chosen]
    rfl
  refine ⟨outcome, failed, ran, rfl, by simp [outcome], fun name fault => ?_⟩
  rw [mem_failures_iff, mem_names_iff]

/-- The check of namespaces. It always comes to an end with a report on each name that leads to a
callable whose plan cannot be derived, and with the exit code 0 if there is none. A callable that its
name leads back to is reported exactly if its own plan cannot be derived. All that cannot be derived
are reported exactly if their names lead to callables that cannot be derived either, for the same
reason; in namespaces of plain records this is so, and the exit code is 0 exactly if all plans can be
derived. -/
theorem check_reports (loaded : r.Loaded) {ns : Option String}
    (chosen : selected r ns = .ok names) :
    ∃ outcome reports, runCommand r (.check ns) = .ok outcome ∧
      outcome.output = lines (reports.map fun (name, fault) => s!"{name}: {fault.message}") ∧
      outcome.exitCode = (if reports = [] then 0 else 1) ∧
      (∀ name fault, (name, fault) ∈ reports ↔
        (∃ c, Inspected r names c ∧ c.qualifiedName = name) ∧
          (r.callable? name).map (Plan.derive r) = some (.error fault)) ∧
      (∀ c, Inspected r names c → r.callable? c.qualifiedName = some c → ∀ fault,
        ((c.qualifiedName, fault) ∈ reports ↔ Plan.derive r c = .error fault)) ∧
      ((∀ c fault, Inspected r names c → Plan.derive r c = .error fault →
          (c.qualifiedName, fault) ∈ reports) ↔
        ∀ c fault, Inspected r names c → Plan.derive r c = .error fault →
          (r.callable? c.qualifiedName).map (Plan.derive r) = some (.error fault)) ∧
      ((∀ ns ∈ names, r.Plain ns) →
        (∀ c, Inspected r names c → r.callable? c.qualifiedName = some c) ∧
          (outcome.exitCode = 0 ↔
            ∀ c, Inspected r names c → ∃ plan, Plan.derive r c = .ok plan)) := by
  obtain ⟨outcome, reports, ran, shown, code, reported⟩ := runCheck_eq chosen
  have own : ∀ c, Inspected r names c → r.callable? c.qualifiedName = some c → ∀ fault,
      ((c.qualifiedName, fault) ∈ reports ↔ Plan.derive r c = .error fault) := by
    intro c inspected leads fault
    rw [reported, leads, Option.map_some, Option.some_inj]
    exact and_iff_right ⟨c, inspected, rfl⟩
  refine ⟨outcome, reports, ran, shown, code, reported, own, ?_, fun plain => ?_⟩
  · constructor
    · intro all c fault inspected fails
      exact ((reported _ _).1 (all c fault inspected fails)).2
    · intro alike c fault inspected fails
      exact (reported _ _).2 ⟨⟨c, inspected, rfl⟩, alike c fault inspected fails⟩
  · have back : ∀ c, Inspected r names c → r.callable? c.qualifiedName = some c := by
      intro c inspected
      obtain ⟨ns, listed, key, bound⟩ := inspected_iff.1 inspected
      exact (plain ns listed).leads_back loaded.filed bound
    refine ⟨back, ?_⟩
    have silent : outcome.exitCode = 0 ↔ reports = [] := by
      rw [code]
      split <;> simp [*]
    rw [silent]
    constructor
    · rintro rfl c inspected
      cases derived : Plan.derive r c with
      | ok plan => exact ⟨plan, rfl⟩
      | error fault => exact absurd ((own c inspected (back c inspected) fault).2 derived) (by simp)
    · intro derivable
      refine List.eq_nil_iff_forall_not_mem.2 ?_
      rintro ⟨name, fault⟩ listed
      obtain ⟨⟨c, inspected, rfl⟩, -⟩ := (reported name fault).1 listed
      obtain ⟨plan, derived⟩ := derivable c inspected
      rw [(own c inspected (back c inspected) fault).1 listed] at derived
      cases derived

/-- A namespace `T` with a function `f` that returns an array of nothing. -/
def arrayText (container : Json) : String :=
  (Json.record [("namespace", .text "T"), ("functions", .array [.record [("name", .text "f"),
    ("container", container), ("return_type", .record [("tag", .text "array")])]])]).render

/-- The function has a name that leads back, and is reported. -/
theorem check_reports_array :
    let r := initial.offered [arrayText .null]
    let fault : PlanFault := .type "T.f" (.missingElementType .array)
    r.Loaded ∧ selected r none = .ok ["GLib", "T"] ∧
      ∃ (outcome : Outcome) (reports : List (String × PlanFault)),
        runCommand r (.check none) = .ok outcome ∧
        outcome.output = lines (reports.map fun (name, fault) => s!"{name}: {fault.message}") ∧
        outcome.exitCode = 1 ∧ ("T.f", fault) ∈ reports := by
  intro r fault
  obtain ⟨chosen, function⟩ : selected r none = .ok ["GLib", "T"] ∧
      (r.function? "T" "f").map (fun c =>
        (c.name, c.container, c.qualifiedName, Plan.derive r c)) =
        some ("f", none, "T.f", .error fault) := by
    decide +kernel
  have loaded : r.Loaded := Loaded.initial.offered [arrayText .null]
  obtain ⟨c, found, shown⟩ := Option.map_eq_some_iff.1 function
  simp only [Prod.mk.injEq] at shown
  obtain ⟨called, free, qualified, fails⟩ := shown
  have listed : c ∈ r.functions "T" := mem_functions_iff.2 ⟨"f", found⟩
  have inspected : Inspected r ["GLib", "T"] c := ⟨"T", by simp, .inl listed⟩
  have back : r.callable? c.qualifiedName = some c :=
    callable?_function loaded.filed (by decide) listed free (called ▸ by decide)
  obtain ⟨outcome, reports, ran, shown, code, -, own, -⟩ := check_reports loaded chosen
  have reported : ("T.f", fault) ∈ reports := qualified ▸ (own c inspected back fault).2 fails
  rw [if_neg (List.ne_nil_of_mem reported)] at code
  exact ⟨loaded, chosen, outcome, reports, ran, shown, code, reported⟩

/-- A function that says that it is contained in `W` has a name that leads nowhere. -/
theorem check_overlooks_function :
    let r := initial.offered [arrayText (.text "W")]
    r.Loaded ∧ selected r none = .ok ["GLib", "T"] ∧
      (∃ c ∈ r.functions "T", c.qualifiedName = "T.W.f" ∧
        Plan.derive r c = .error (.type "T.W.f" (.missingElementType .array))) ∧
      runCommand r (.check none) = .ok ⟨0, "", "1 callables, 0 failed\n"⟩ := by
  intro r
  obtain ⟨chosen, function, ran⟩ : selected r none = .ok ["GLib", "T"] ∧
      (r.function? "T" "f").map (fun c => (c.qualifiedName, Plan.derive r c)) =
        some ("T.W.f", .error (.type "T.W.f" (.missingElementType .array))) ∧
      runCommand r (.check none) = .ok ⟨0, "", "1 callables, 0 failed\n"⟩ := by
    decide +kernel
  have loaded : r.Loaded := Loaded.initial.offered [arrayText (.text "W")]
  obtain ⟨c, found, shown⟩ := Option.map_eq_some_iff.1 function
  rw [Prod.mk.injEq] at shown
  exact ⟨loaded, chosen, ⟨c, mem_functions_iff.2 ⟨"f", found⟩, shown⟩, ran⟩

end CommandLine

end ForeignCall
