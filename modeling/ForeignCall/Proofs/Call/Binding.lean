import ForeignCall.Call.Invoke
import ForeignCall.Proofs.Call.Frame
import ForeignCall.Proofs.Repository.Naming
import Mathlib.Data.List.Perm.Subperm

/-!
Bindings: what names stand for in a session.

A session binds a name to the callable that it leads to, and nothing that a host does with the session
changes what a bound name stands for. The names under which the callables of a namespace are bound need
not be distinct, though: the map has the last callable of each, so that it is complete exactly if no two
callables go by one name.
-/

set_option autoImplicit false

namespace ForeignCall

open ForeignCall.Action

/-- Putting items into an empty table keeps all of them exactly if no two have one name. -/
theorem size_foldl_insert_iff {β : Type} (l : List (String × β)) :
    (l.foldl (fun t p => t.insert p.1 p.2) (∅ : Std.TreeMap String β)).size = l.length ↔
      (l.map Prod.fst).Nodup := by
  let t := l.foldl (fun t p => t.insert p.1 p.2) (∅ : Std.TreeMap String β)
  have keys : ∀ key, key ∈ t.keys ↔ key ∈ l.map Prod.fst := by
    intro key
    rw [Std.TreeMap.mem_keys, Std.TreeMap.mem_iff_isSome_getElem?,
      getElem?_foldl_insert Prod.fst Prod.snd l ∅ key]
    simp [List.findRev?_eq_find?_reverse]
  have within : t.keys.Subperm (l.map Prod.fst) :=
    Std.TreeMap.nodup_keys.subperm fun key listed => (keys key).1 listed
  rw [← Std.TreeMap.length_keys, ← List.length_map Prod.fst]
  constructor
  · intro same
    exact (within.perm_of_length_le (Nat.le_of_eq same.symm)).nodup_iff.1 Std.TreeMap.nodup_keys
  · intro distinct
    exact ((List.perm_ext_iff_of_nodup Std.TreeMap.nodup_keys distinct).2 keys).length_eq

/-- The last item of each name is the only one exactly if no two have one name. -/
theorem findRev?_all_iff {β : Type} {l : List (String × β)} (apart : (l.map Prod.snd).Nodup) :
    (∀ key v, (key, v) ∈ l → (l.findRev? (·.1 == key)).map Prod.snd = some v) ↔
      (l.map Prod.fst).Nodup := by
  constructor
  · intro found
    refine apart.of_map.map_on ?_
    rintro ⟨key, v⟩ listed ⟨_, v'⟩ listed' (rfl : key = _)
    have same := (found key v listed).symm.trans (found key v' listed')
    exact congrArg (Prod.mk key) (Option.some.inj same)
  · intro distinct key v listed
    rw [List.findRev?_eq_find?_reverse]
    cases found : l.reverse.find? (·.1 == key) with
    | none =>
      have other := List.find?_eq_none.1 found (key, v) (List.mem_reverse.2 listed)
      simp at other
    | some last =>
      have listed' : last ∈ l := List.mem_reverse.1 (List.mem_of_find?_eq_some found)
      have called : last.1 = key := by simpa using List.find?_some found
      rw [List.inj_on_of_nodup_map distinct listed' listed called]
      rfl

namespace Session

variable {σ α β : Type} {w : World σ} {s t : Session σ} {name : String} {b : Binding}

/-- Each name that the session has bound stands for the callable that it leads to. -/
def BindsTrue (w : World σ) (s : Session σ) : Prop :=
  ∀ (name : String) (b : Binding), s.bindings[name]? = some b →
    w.environment.repository.callable? name = some b.callable

theorem bindsTrue_start (w : World σ) (host : σ) : (start host).BindsTrue w := by
  intro name b bound
  simp [start] at bound

theorem BindsTrue.insert (binds : s.BindsTrue w)
    (leads : w.environment.repository.callable? name = some b.callable) :
    BindsTrue w { s with bindings := s.bindings.insert name b } := by
  intro other b' bound
  simp only [Std.TreeMap.getElem?_insert, Std.LawfulEqCmp.compare_eq_iff_eq] at bound
  split at bound
  · rename_i same
    obtain rfl := Option.some.inj bound
    exact same ▸ leads
  · exact binds other b' bound

/-- Binding a name gives what it leads to, and touches nothing else. -/
theorem bind_gives (binds : s.BindsTrue w) :
    (bind w name).Gives s
      (fun b t => w.environment.repository.callable? name = some b.callable ∧ t.BindsTrue w ∧
        t.memory = s.memory ∧ t.host = s.host)
      (fun e t => w.environment.repository.callable? name = none ∧ e = .notFound name ∧ t = s)
      fun _ => False := by
  rw [bind, gives_bind, gives_get]
  split
  · rename_i b bound
    exact ⟨binds name b bound, binds, rfl, rfl⟩
  · split
    · rename_i missing
      exact ⟨missing, rfl, rfl⟩
    · rename_i c found
      exact ⟨found, binds.insert found, rfl, rfl⟩

/-! ### What hosts do -/

/-- However the action ends, bound names stand for what they lead to if they did before. -/
def KeepsTrue (w : World σ) (x : SessionM σ α) : Prop :=
  x.Across fun s t => s.BindsTrue w → t.BindsTrue w

theorem composes_true : Composes fun s t : Session σ => s.BindsTrue w → t.BindsTrue w where
  refl _ binds := binds
  trans first second binds := second (first binds)

theorem KeepsTrue.bind {x : SessionM σ α} {f : α → SessionM σ β} (first : KeepsTrue w x)
    (rest : ∀ a, KeepsTrue w (f a)) : KeepsTrue w (x >>= f) :=
  Across.bind composes_true first rest

theorem KeepsTrue.attempt {x : SessionM σ α} (keeps : KeepsTrue w x) :
    KeepsTrue w (attempt x : SessionM σ (Except CallError α)) :=
  Across.attempt keeps

theorem keepsTrue_pure (a : α) : KeepsTrue w (pure a : SessionM σ α) := across_pure composes_true a

theorem keepsTrue_fail (e : CallError) : KeepsTrue w (fail e : SessionM σ α) :=
  across_fail composes_true e

theorem keepsTrue_ofExcept (r : Except CallError α) : KeepsTrue w (ofExcept r : SessionM σ α) :=
  across_ofExcept composes_true r

theorem keepsTrue_get : KeepsTrue w (get : SessionM σ (Session σ)) := across_get composes_true

theorem keepsTrue_write (host : σ) :
    KeepsTrue w (modify fun s => { s with host := host } : SessionM σ PUnit) :=
  across_modify fun _ binds => binds

theorem keepsTrue_onMemory (x : MemoryM CallError α) : KeepsTrue w (onMemory x : SessionM σ α) := by
  intro s
  rw [gives_onMemory]
  exact (gives_anyhow x s.memory).mono (fun _ _ _ binds => binds) fun _ _ _ binds => binds

theorem keepsTrue_convert (x : ConversionM α) : KeepsTrue w (convert x : SessionM σ α) :=
  keepsTrue_onMemory _

theorem keepsTrue_within (f : Frame) (x : FrameM α) :
    KeepsTrue w (within f x : SessionM σ (Except CallError α × Frame)) := by
  intro s
  rw [gives_within]
  exact (gives_anyhow x _).mono (fun _ _ _ binds => binds) fun _ _ _ binds => binds

theorem keepsTrue_heldNow (held : List Value) : KeepsTrue w (heldNow w held) :=
  keepsTrue_get.bind fun _ => keepsTrue_pure _

/-- What follows the binding of a name may rely on what it stands for. -/
theorem keepsTrue_bind {f : Binding → SessionM σ α}
    (rest : ∀ b, w.environment.repository.callable? name = some b.callable → KeepsTrue w (f b)) :
    KeepsTrue w (Session.bind w name >>= f) := by
  intro s
  rw [gives_bind]
  by_cases binds : s.BindsTrue w
  · refine ((bind_gives binds).mono_halted fun _ => False.elim).mono ?_ ?_
    · rintro b t ⟨leads, kept, -⟩
      exact (rest b leads t).mono (fun _ _ later _ => later kept) fun _ _ later _ => later kept
    · rintro e t ⟨-, -, rfl⟩ binds
      exact binds
  · exact (gives_anyhow _ s).mono (fun b t _ => (gives_anyhow _ t).mono
      (fun _ _ _ was => absurd was binds) fun _ _ _ was => absurd was binds)
      fun _ _ _ was => absurd was binds

theorem keepsTrue_bindName (w : World σ) (name : String) : KeepsTrue w (Session.bind w name) := by
  have after : KeepsTrue w (Session.bind w name >>= pure) :=
    keepsTrue_bind fun b _ => keepsTrue_pure b
  rwa [bind_pure] at after

theorem keepsTrue_prepare (leads : w.environment.repository.callable? name = some b.callable) :
    KeepsTrue w (prepare w name b) := by
  refine KeepsTrue.bind (across_modify fun s binds => ?_) fun _ => keepsTrue_ofExcept _
  exact binds.insert (b := { b with prepared := _ }) leads

theorem keepsTrue_planOf (w : World σ) (name : String) : KeepsTrue w (planOf w name) :=
  keepsTrue_bind fun _ leads => keepsTrue_prepare leads

theorem keepsTrue_check (w : World σ) (name : String) (arguments : List Value) :
    KeepsTrue w (check w name arguments) :=
  (keepsTrue_planOf w name).bind fun _ => keepsTrue_ofExcept _

theorem keepsTrue_native {callback : Nat → List Slot → SessionM σ Slot}
    (calls : ∀ address slots, KeepsTrue w (callback address slots)) (n : Native σ) :
    KeepsTrue w (n.run callback) := by
  induction n with
  | ret slot => exact keepsTrue_pure slot
  | fault f => exact keepsTrue_fail _
  | heap op next ih => exact (keepsTrue_onMemory _).bind fun answer => ih answer
  | callback function slots next ih =>
    rw [Native.run]
    refine (calls _ _).attempt.bind fun answer => ?_
    split
    · exact ih _
    · exact (keepsTrue_onMemory _).bind fun _ => ih _
  | raise e next ih => exact (keepsTrue_onMemory _).bind fun _ => ih
  | note n next ih => exact (keepsTrue_onMemory _).bind fun _ => ih
  | read next ih => exact keepsTrue_get.bind fun s => ih s.host
  | write host next ih => exact (keepsTrue_write host).bind fun _ => ih

theorem keepsTrue_script
    {call : List Value → String → Option Value → List Value → SessionM σ Value}
    (calls : ∀ held name receiver arguments, KeepsTrue w (call held name receiver arguments))
    (held : List Value) (script : Script σ) : KeepsTrue w (script.run call held) := by
  induction script generalizing held with
  | ret v => exact keepsTrue_pure v
  | throw e => exact keepsTrue_fail e
  | call name receiver arguments next ih =>
    exact (calls _ _ _ _).attempt.bind fun answer => ih answer _
  | wrap address typeName adopts next ih => exact (keepsTrue_onMemory _).bind fun x => ih x _
  | read next ih => exact keepsTrue_get.bind fun s => ih s.host held
  | write host next ih => exact (keepsTrue_write host).bind fun _ => ih held

theorem keepsTrue_enterCallback {runScript : List Value → Script σ → SessionM σ Value}
    (runs : ∀ held script, KeepsTrue w (runScript held script)) (held : List Value)
    (address : Nat) (slots : List Slot) :
    KeepsTrue w (enterCallback w runScript held address slots) := by
  unfold enterCallback
  split
  · exact (keepsTrue_convert _).bind fun _ => keepsTrue_pure _
  · refine keepsTrue_get.bind fun s => ?_
    split
    · exact keepsTrue_fail _
    · refine (keepsTrue_heldNow held).bind fun around => (keepsTrue_convert _).bind fun given => ?_
      refine (keepsTrue_onMemory _).bind fun _ => (runs _ _).attempt.bind fun result => ?_
      refine (keepsTrue_convert _).bind fun _ => (keepsTrue_ofExcept result).bind fun v => ?_
      exact keepsTrue_convert _

theorem keepsTrue_invoke {callback : Nat → List Slot → SessionM σ Slot}
    (calls : ∀ address slots, KeepsTrue w (callback address slots)) (held : List Value)
    (name : String) (receiver : Option Value) (arguments : List Value) :
    KeepsTrue w (invoke w callback held name receiver arguments) := by
  have enters (symbol : String) (slots : List Slot) :
      KeepsTrue w (enter w callback symbol slots) := by
    refine (keepsTrue_onMemory _).bind fun _ => ?_
    split
    · exact keepsTrue_native calls _
    · exact keepsTrue_fail _
  have executes (symbol : String) (plan : Plan) (address : Option Nat) :
      KeepsTrue w (execute w callback held symbol plan receiver address arguments) := by
    refine (keepsTrue_within _ _).bind fun filled => ?_
    dsimp only
    split
    · exact keepsTrue_pure _
    · refine (enters symbol _).attempt.bind fun ret => ?_
      split
      · exact keepsTrue_pure _
      · exact (keepsTrue_heldNow held).bind fun around => keepsTrue_within _ _
  refine keepsTrue_bind fun b leads => (keepsTrue_prepare leads).bind fun plan => ?_
  refine (keepsTrue_ofExcept _).bind fun _ => (keepsTrue_ofExcept _).bind fun address => ?_
  refine (executes _ _ _).bind fun outcome => (keepsTrue_within _ _).bind fun released => ?_
  refine (keepsTrue_ofExcept _).bind fun v => ?_
  exact (keepsTrue_ofExcept _).bind fun _ => keepsTrue_pure v

theorem keepsTrue_callNested (w : World σ) (depth : Nat) (held : List Value) (name : String)
    (receiver : Option Value) (arguments : List Value) :
    KeepsTrue w (callNested w depth held name receiver arguments) := by
  induction depth generalizing held name receiver arguments with
  | zero => exact across_endless
  | succ depth ih =>
    refine keepsTrue_invoke (fun address slots => ?_) held name receiver arguments
    exact keepsTrue_enterCallback (fun held script => keepsTrue_script ih held script) held _ _

theorem keepsTrue_runScript (w : World σ) (depth : Nat) (held : List Value) (script : Script σ) :
    KeepsTrue w (runScript w depth held script) :=
  keepsTrue_script (keepsTrue_callNested w depth) held script

theorem keepsTrue_runNative (w : World σ) (depth : Nat) (held : List Value) (n : Native σ) :
    KeepsTrue w (runNative w depth held n) :=
  keepsTrue_native (keepsTrue_enterCallback (keepsTrue_runScript w depth) held) n

/-! ### Namespaces -/

/-- Binds callables by their qualified names, each under the name it comes with. -/
def bindAll (w : World σ) (named : List (String × CallableRecord))
    (bound : Std.TreeMap String Binding) : SessionM σ (Std.TreeMap String Binding) :=
  named.foldlM (fun bound p => do
    return bound.insert p.1 (← Session.bind w p.2.qualifiedName)) bound

theorem bindNamespace_eq (w : World σ) (ns : String) :
    bindNamespace w ns =
      if w.environment.repository.namespaceNames.contains ns then
        bindAll w (w.environment.repository.bindable ns) ∅
      else Action.fail (.notFound ns) := by
  unfold bindNamespace bindAll
  dsimp only
  rw [← Repository.map_bindable, List.foldlM_map]
  cases w.environment.repository.namespaceNames.contains ns <;> rfl

theorem keepsTrue_bindNamespace (w : World σ) (ns : String) : KeepsTrue w (bindNamespace w ns) := by
  have all (named : List (String × CallableRecord)) (bound : Std.TreeMap String Binding) :
      KeepsTrue w (bindAll w named bound) := by
    induction named generalizing bound with
    | nil => exact keepsTrue_pure bound
    | cons first rest ih =>
      rw [bindAll, List.foldlM_cons]
      exact (keepsTrue_bind fun b _ => keepsTrue_pure _).bind fun bound => ih bound
  rw [bindNamespace_eq]
  split
  · exact all _ _
  · exact keepsTrue_fail _

/-- What a host does with a session. -/
inductive Operation (w : World σ) : ∀ {α : Type}, SessionM σ α → Prop
  | bind (name : String) : Operation w (Session.bind w name)
  | bindNamespace (ns : String) : Operation w (bindNamespace w ns)
  | plan (name : String) : Operation w (planOf w name)
  | check (name : String) (arguments : List Value) : Operation w (check w name arguments)
  | call (depth : Nat) (held : List Value) (name : String) (receiver : Option Value)
      (arguments : List Value) : Operation w (callNested w depth held name receiver arguments)
  | script (depth : Nat) (held : List Value) (s : Script σ) : Operation w (runScript w depth held s)
  | native (depth : Nat) (held : List Value) (n : Native σ) : Operation w (runNative w depth held n)
  | memory {α : Type} (x : MemoryM CallError α) : Operation w (onMemory x)
  | host (host : σ) : Operation w (modify fun s => { s with host := host })

theorem Operation.keepsTrue {x : SessionM σ α} (operation : Operation w x) : KeepsTrue w x := by
  cases operation with
  | bind name => exact keepsTrue_bindName w name
  | bindNamespace ns => exact keepsTrue_bindNamespace w ns
  | plan name => exact keepsTrue_planOf w name
  | check name arguments => exact keepsTrue_check w name arguments
  | call depth held name receiver arguments =>
    exact keepsTrue_callNested w depth held name receiver arguments
  | script depth held s => exact keepsTrue_runScript w depth held s
  | native depth held n => exact keepsTrue_runNative w depth held n
  | memory x => exact keepsTrue_onMemory x
  | host host => exact keepsTrue_write host

/-- The sessions that a host comes to by what it does, whether or not that fails. -/
inductive Used (w : World σ) : Session σ → Prop
  | start (host : σ) : Used w (.start host)
  | next {α : Type} {s t : Session σ} {x : SessionM σ α} {outcome : Except CallError α}
      (before : Used w s) (operation : Operation w x)
      (ran : (attempt x : SessionM σ (Except CallError α)) s = .ok outcome t) : Used w t

theorem Used.bindsTrue (used : Used w s) : s.BindsTrue w := by
  induction used with
  | start host => exact bindsTrue_start w host
  | @next α s t x outcome before operation ran ih =>
    exact (operation.keepsTrue.attempt s).of_ok ran ih

/-- Callables that their names lead back to are bound all, each under the name it comes with. -/
theorem bindAll_gives (binds : s.BindsTrue w) (named : List (String × CallableRecord))
    (lead : ∀ p ∈ named, w.environment.repository.callable? p.2.qualifiedName = some p.2)
    (bound : Std.TreeMap String Binding) :
    (bindAll w named bound).Gives s
      (fun bound' t => (∃ items : List (String × Binding),
          items.map (fun p => (p.1, p.2.callable)) = named ∧
          bound' = items.foldl (fun t p => t.insert p.1 p.2) bound) ∧
        t.memory = s.memory ∧ t.host = s.host)
      (fun _ _ => False) fun _ => False := by
  induction named generalizing s bound with
  | nil => exact ⟨⟨[], rfl, rfl⟩, rfl, rfl⟩
  | cons first rest ih =>
    obtain ⟨here, later⟩ := List.forall_mem_cons.1 lead
    rw [bindAll, List.foldlM_cons, gives_bind, gives_bind]
    refine (bind_gives binds).mono ?_ ?_
    · rintro b t ⟨leads, kept, memory, host⟩
      obtain ⟨key, c⟩ := first
      obtain rfl : c = b.callable := Option.some.inj (here.symm.trans leads)
      refine (ih kept later (bound.insert key b)).mono ?_ fun _ _ => False.elim
      rintro bound' t' ⟨⟨items, rfl, rfl⟩, memory', host'⟩
      exact ⟨⟨(key, b) :: items, rfl, rfl⟩, memory'.trans memory, host'.trans host⟩
    · rintro e t ⟨missing, -⟩
      rw [here] at missing
      cases missing

/-- Binding a namespace. Whatever was done with the session before, the map of a namespace of plain
records has under each key the last of the callables that go by it. It has every function under its
name and every method under `Type_method`, and as many entries as there are functions and methods,
exactly if no two of them go by one key. -/
theorem namespace_bound (loaded : w.environment.repository.Loaded) {ns : String}
    (plain : w.environment.repository.Plain ns) (used : Used w s)
    (known : w.environment.repository.namespaceNames.contains ns = true) :
    let r := w.environment.repository
    ∃ bound t, bindNamespace w ns s = .ok bound t ∧ t.memory = s.memory ∧ t.host = s.host ∧
      (∀ key : String, (bound[key]?).map (·.callable) =
        ((r.bindable ns).findRev? (·.1 == key)).map (·.2)) ∧
      ((∀ key c, (key, c) ∈ r.bindable ns → (bound[key]?).map (·.callable) = some c) ↔
        ((r.bindable ns).map (·.1)).Nodup) ∧
      (bound.size = (r.functions ns).length + ((r.entries ns).flatMap (·.methods)).length ↔
        ((r.bindable ns).map (·.1)).Nodup) := by
  intro r
  have lead : ∀ p ∈ r.bindable ns, r.callable? p.2.qualifiedName = some p.2 :=
    fun p listed => plain.leads_back loaded.filed listed
  obtain ⟨bound, t, ran, ⟨items, named, rfl⟩, memory, host⟩ :=
    (bindAll_gives used.bindsTrue (r.bindable ns) lead ∅).exists_ok
  have keyed (key : String) : ((items.foldl (fun t p => t.insert p.1 p.2)
      (∅ : Std.TreeMap String Binding))[key]?).map (·.callable) =
      ((r.bindable ns).findRev? (·.1 == key)).map (·.2) := by
    rw [getElem?_foldl_insert Prod.fst Prod.snd, ← named]
    simp [List.findRev?_eq_find?_reverse, ← List.map_reverse, Function.comp_def]
  have names : items.map Prod.fst = (r.bindable ns).map (·.1) := by
    rw [← named, List.map_map]
    rfl
  have count : items.length =
      (r.functions ns).length + ((r.entries ns).flatMap (·.methods)).length := by
    rw [← List.length_map fun p => (p.1, p.2.callable), named, Repository.length_bindable]
  refine ⟨_, t, ?_, memory, host, keyed, ?_, ?_⟩
  · rw [bindNamespace_eq, if_pos known]
    exact ran
  · simp only [keyed]
    exact findRev?_all_iff (plain.nodup_bindable loaded.filed)
  · rw [← count, ← names]
    exact size_foldl_insert_iff items

/-- A namespace `T` with a function of the given name, and a type `W` with a method `m`. -/
def methodText (function : String) : String :=
  (Json.record [("namespace", .text "T"),
    ("functions", .array [.record [("name", .text function)]]),
    ("types", .array [.record [("name", .text "W"), ("kind", .text "object"),
      ("methods", .array [.record [("name", .text "m")]])]])]).render

def silentWorld (r : Repository) : World Unit where
  environment := ⟨r, .pin⟩
  library := fun _ => none
  script := fun _ _ => .ret .undefined
  kept := fun _ => []

/-- A function `f` and the method `m` of a type `W` go by different keys. -/
theorem namespace_bound_apart :
    let r := Repository.initial.offered [methodText "f"]
    r.Loaded ∧ r.Plain "T" ∧ Used (silentWorld r) (.start ()) ∧
      r.namespaceNames.contains "T" = true ∧ ((r.bindable "T").map (·.1)).Nodup ∧
      ∃ bound t, bindNamespace (silentWorld r) "T" (.start ()) = .ok bound t ∧ bound.size = 2 := by
  intro r
  -- one decision for all facts: the text is read once
  obtain ⟨plain, known, distinct, count⟩ : r.Plain "T" ∧ r.namespaceNames.contains "T" = true ∧
      ((r.bindable "T").map (·.1)).Nodup ∧
      (r.functions "T").length + ((r.entries "T").flatMap (·.methods)).length = 2 := by
    decide +kernel
  have loaded : r.Loaded := Repository.Loaded.initial.offered [methodText "f"]
  clear_value r
  obtain ⟨bound, t, ran, -, -, -, -, size⟩ :=
    namespace_bound (w := silentWorld r) loaded plain (.start ()) known
  exact ⟨loaded, plain, .start (), known, distinct, bound, t, ran, (size.2 distinct).trans count⟩

/-- A function `W_m` and the method `m` of a type `W` go by one key. The function is bound first, so
that only the method is in the map. -/
theorem namespace_bound_clash :
    let r := Repository.initial.offered [methodText "W_m"]
    r.Loaded ∧ r.Plain "T" ∧ r.namespaceNames.contains "T" = true ∧
      (r.bindable "T").map (fun p => (p.1, p.2.qualifiedName)) =
        [("W_m", "T.W_m"), ("W_m", "T.W.m")] ∧
      ∃ bound t, bindNamespace (silentWorld r) "T" (.start ()) = .ok bound t ∧ bound.size = 1 ∧
        (bound["W_m"]?).map (·.callable.qualifiedName) = some "T.W.m" := by
  intro r
  let last (bound : Std.TreeMap String Binding) (_ : Session Unit) : Bool :=
    bound.size == 1 && (bound["W_m"]?).map (·.callable.qualifiedName) == some "T.W.m"
  obtain ⟨plain, known, listed, ends⟩ : r.Plain "T" ∧ r.namespaceNames.contains "T" = true ∧
      (r.bindable "T").map (fun p => (p.1, p.2.qualifiedName)) =
        [("W_m", "T.W_m"), ("W_m", "T.W.m")] ∧
      (bindNamespace (silentWorld r) "T").succeeds (.start ()) last = true := by
    decide +kernel
  have loaded : r.Loaded := Repository.Loaded.initial.offered [methodText "W_m"]
  obtain ⟨bound, t, ran, shown⟩ := exists_ok_such last ends
  simp only [last, Bool.and_eq_true, beq_iff_eq] at shown
  exact ⟨loaded, plain, known, listed, bound, t, ran, shown⟩

end Session

end ForeignCall
