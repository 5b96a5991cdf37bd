import ForeignCall.Proofs.Ownership.Atomicity

/-!
The nodes of a list that was built.

A list is built from its end: the element is lowered while the chain behind it is already there, then
a node for it is put in front, and in a doubly linked list that node's address is patched into the node
that was first. A walk reads the links forwards only. Here both directions are followed.
-/

set_option autoImplicit false

namespace ForeignCall

open ForeignCall.Action

variable {h g k t : Heap} {singlyLinked : Bool} {item : Slot} {head node : Nat} {nodes : List Nat}

/-- The nodes are live blocks of their list's size, all different, and each one is linked to the next
and, in a doubly linked list, to the previous one. At both ends the link is zero. -/
structure Heap.Strung (h : Heap) (singlyLinked : Bool) (nodes : List Nat) : Prop where
  distinct : nodes.Nodup
  live : ∀ a ∈ nodes, h.Live ⟨a, nodeSize singlyLinked⟩
  next : ∀ i a, nodes[i]? = some a →
    h.slotAt (a + nextOffset) 8 = .ofNat (nodes.getD (i + 1) 0)
  previous : singlyLinked = false → ∀ i a, nodes[i]? = some a →
    h.slotAt (a + previousOffset) 8 = .ofNat ((0 :: nodes).getD i 0)

/-! ### Words of a node that is put in front -/

/-- In a doubly linked list the new node has no previous one, and is the previous one of the node that
was first. -/
def Heap.Ties (t : Heap) (head node : Nat) : Prop :=
  t.slotAt (node + previousOffset) 8 = .null ∧
    (head ≠ 0 → t.slotAt (head + previousOffset) 8 = .ofNat node)

theorem linkPrevious_ties (blank : ∀ x, node + previousOffset ≤ x → g.byteAt x = 0)
    (apart : head ≠ 0 → head + nodeSize false ≤ node)
    (inside : head ≠ 0 → g.Accessible (head + previousOffset) 8) :
    (do if !false && head != 0 then Heap.storePointer (head + previousOffset) node
        return node : HeapM Nat).Gives g (fun node t => t.Ties head node) fun _ _ => False := by
  split
  · rename_i linked
    have nonzero : head ≠ 0 := by simpa using linked
    have within := inside nonzero
    have size : nodeSize false = 24 := rfl
    have before := apart nonzero
    refine gives_bind.2 (gives_of_ok (Heap.storePointer_eq node within) ⟨?_, fun _ => ?_⟩)
    · refine Heap.slotAt_of_blank fun x above _ => ?_
      rw [Heap.byteAt_stored_of_outside _ (Nat.le_refl 8) within
        (by simp only [previousOffset] at *; omega)]
      exact blank x above
    · exact Heap.slotAt_stored _ within
  · rename_i unlinked
    exact ⟨Heap.slotAt_of_blank fun x above _ => blank x above, fun nonzero =>
      absurd (by simpa using nonzero) unlinked⟩

theorem prependNode_ties (chained : head ≠ 0 → g.Live ⟨head, nodeSize false⟩) :
    (prependNode false item head).Gives g (fun node t => t.Ties head node) fun _ _ => False := by
  rw [prependNode, gives_bind]
  refine Heap.gives_alloc fun node after positive room => ?_
  have large : 16 ≤ max (nodeSize false) 1 := by decide
  have live := (Heap.Grows.extend after positive room).live (List.mem_singleton_self _)
  have within : (g.extend node _ after positive room).Accessible node 16 :=
    live.accessible_start large
  obtain ⟨first, second⟩ := Heap.accessible_node item within
  rw [gives_bind]
  apply gives_of_ok (Heap.store_eq item first)
  rw [gives_bind]
  apply gives_of_ok (Heap.storePointer_eq head second)
  rw [← Heap.withNode]
  have old := fun nonzero => (chained nonzero).inside
  simp only [Block.stop] at old
  refine linkPrevious_ties (fun x above => ?_) (fun nonzero => Nat.le_trans (old nonzero).2.2 after)
    fun nonzero => ?_
  · simp only [previousOffset] at above
    rw [Heap.byteAt_withNode within (by omega), Heap.byteAt_extend, Heap.byteAt_of_size_le (by omega)]
  · have size : nodeSize false = 24 := rfl
    have inside := old nonzero
    simp only [Heap.Accessible, Heap.withNode, Heap.size_overwritten, Heap.size_extend, previousOffset]
    omega

/-! ### Nodes stay strung -/

namespace Heap.Strung

theorem nil (h : Heap) (singlyLinked : Bool) : h.Strung singlyLinked [] where
  distinct := List.nodup_nil
  live := by simp
  next := by simp
  previous := by simp

/-- A word inside a live block is the same when the heap retains what it has. -/
theorem word_eq {b : Block} (retains : h.Retains g) (live : h.Live b) {address : Nat}
    (below : address + 8 ≤ b.stop) : g.slotAt address 8 = h.slotAt address 8 :=
  retains.slotAt_eq (Nat.le_trans below live.inside.2.2)

theorem retains (strung : h.Strung singlyLinked nodes) (retains : h.Retains g) :
    g.Strung singlyLinked nodes := by
  have large := sixteen_le_nodeSize singlyLinked
  refine ⟨strung.distinct, fun a listed => retains.keeps_live (strung.live a listed), ?_, ?_⟩
  · intro i a found
    have live := strung.live a (List.mem_of_getElem? found)
    rw [word_eq retains live (by simp only [Block.stop, nextOffset]; omega)]
    exact strung.next i a found
  · rintro rfl i a found
    have size : nodeSize false = 24 := rfl
    have live := strung.live a (List.mem_of_getElem? found)
    rw [word_eq retains live (by simp only [Block.stop, previousOffset, size]; omega)]
    exact strung.previous rfl i a found

theorem live_head (strung : h.Strung singlyLinked nodes) (nonzero : nodes.headD 0 ≠ 0) :
    h.Live ⟨nodes.headD 0, nodeSize singlyLinked⟩ := by
  cases nodes with
  | nil => exact absurd rfl nonzero
  | cons a rest => exact strung.live a (by simp)

/-- The first sixteen bytes of a node stay when another node is put in front of the chain. -/
theorem front_eq (prepended : Prepended g t singlyLinked item head node)
    (chained : head ≠ 0 → g.Live ⟨head, nodeSize singlyLinked⟩) {a : Nat}
    (live : g.Live ⟨a, nodeSize singlyLinked⟩) {x : Nat} (above : a ≤ x) (below : x < a + 16) :
    t.byteAt x = g.byteAt x := by
  have large := sixteen_le_nodeSize singlyLinked
  by_cases first : a = head
  · subst first
    have inside := live.inside
    simp only [Block.stop] at inside
    exact prepended.byteAt_eq x (by omega) fun _ => .inl below
  · refine prepended.spares chained live (fun _ same => first ?_) above ?_
    · exact congrArg Block.address same
    · simp only [Block.stop]
      omega

/-- The new node is linked to the one that was first, and the others to the next one as before. -/
theorem next_prepend (strung : g.Strung singlyLinked nodes)
    (prepended : Prepended g t singlyLinked item (nodes.headD 0) node) {i a : Nat}
    (found : (node :: nodes)[i]? = some a) :
    t.slotAt (a + nextOffset) 8 = .ofNat ((node :: nodes).getD (i + 1) 0) := by
  cases i with
  | zero =>
    obtain rfl : node = a := by simpa using found
    rw [prepended.next_eq]
    cases nodes <;> rfl
  | succ i =>
    rw [List.getElem?_cons_succ] at found
    have live := strung.live a (List.mem_of_getElem? found)
    rw [List.getD_cons_succ, ← strung.next i a found]
    exact slotAt_congr fun x above below => front_eq prepended strung.live_head live
      (Nat.le_trans (Nat.le_add_right _ _) above) (by simpa only [nextOffset, Nat.add_assoc] using below)

/-- The new node has no previous one, and only the link back of the node that was first is new. -/
theorem previous_prepend (strung : g.Strung false nodes)
    (prepended : Prepended g t false item (nodes.headD 0) node)
    (ties : t.Ties (nodes.headD 0) node) {i a : Nat} (found : (node :: nodes)[i]? = some a) :
    t.slotAt (a + previousOffset) 8 = .ofNat ((0 :: node :: nodes).getD i 0) := by
  obtain ⟨none, back⟩ := ties
  cases i with
  | zero =>
    obtain rfl : node = a := by simpa using found
    exact none
  | succ i =>
    rw [List.getElem?_cons_succ] at found
    have live := strung.live a (List.mem_of_getElem? found)
    rw [List.getD_cons_succ]
    cases nodes with
    | nil => simp at found
    | cons b rest =>
      cases i with
      | zero =>
        obtain rfl : b = a := by simpa using found
        exact back fun zero => by
          have inside := live.inside
          simp only [List.headD_cons] at zero
          simp only [zero, Heap.guardSize] at inside
          omega
      | succ i =>
        -- The word belongs to a node behind the one that was first.
        have other : a ≠ b := by
          rintro rfl
          have absent := (List.nodup_cons.1 strung.distinct).1
          exact absent (List.mem_of_getElem? found)
        have before := strung.previous rfl (i + 1) a found
        rw [List.getD_cons_succ] at before ⊢
        rw [← before]
        exact slotAt_congr fun x above below => prepended.spares strung.live_head live
          (fun _ same => other (congrArg Block.address same))
          (Nat.le_trans (Nat.le_add_right _ _) above) below

theorem prepend (strung : g.Strung singlyLinked nodes)
    (prepended : Prepended g t singlyLinked item (nodes.headD 0) node)
    (ties : singlyLinked = false → t.Ties (nodes.headD 0) node) :
    t.Strung singlyLinked (node :: nodes) := by
  have fresh : ∀ a ∈ nodes, a < node := by
    intro a listed
    have inside := (strung.live a listed).inside
    have after := prepended.after
    simp only [Block.stop] at inside
    omega
  refine ⟨?_, ?_, fun i a => strung.next_prepend prepended, fun doubly i a found => ?_⟩
  · exact List.nodup_cons.2 ⟨fun listed => Nat.lt_irrefl node (fresh node listed), strung.distinct⟩
  · intro a listed
    rcases List.mem_cons.1 listed with rfl | old
    · exact prepended.live
    · exact prepended.keeps_live (strung.live a old)
  · subst doubly
    exact strung.previous_prepend prepended (ties rfl) found

end Heap.Strung

theorem prependNode_built (strung : g.Strung singlyLinked nodes) :
    (prependNode singlyLinked item (nodes.headD 0)).Gives g
      (fun node t => Prepended g t singlyLinked item (nodes.headD 0) node ∧
        (singlyLinked = false → t.Ties (nodes.headD 0) node))
      fun _ _ => False := by
  have prepends : (prependNode singlyLinked item (nodes.headD 0)).Gives g
      (fun node t => Prepended g t singlyLinked item (nodes.headD 0) node) fun _ _ => False :=
    prependNode_gives strung.live_head fun _ => rfl
  cases singlyLinked with
  | true => exact prepends.mono (fun _ _ prepended => ⟨prepended, nofun⟩) fun _ _ never => never
  | false =>
    exact (prepends.both (prependNode_ties strung.live_head)).mono
      (fun _ _ both => ⟨both.1, fun _ => both.2⟩) fun _ _ never => never.1

/-! ### Building -/

section Building

variable {env : Environment} {d element : Descriptor} {pointer : Bool}
  {lowerItem : Value → ConversionM Slot} {items : List Value} {m : Memory}

theorem linkItems_append (first second : List Value) (head : Nat) :
    linkItems d singlyLinked lowerItem head (first ++ second) =
      linkItems d singlyLinked lowerItem head first >>= fun head =>
        linkItems d singlyLinked lowerItem head second := by
  induction first generalizing head with
  | nil => rfl
  | cons item rest ih =>
    rw [List.cons_append, linkItems, linkItems, bind_assoc]
    congr 1
    funext lowered
    cases lowered with
    | ok slot => simp only [bind_assoc, ih]
    | error fault =>
      simp only [bind_assoc]
      rfl

/-- Each item is lowered when the list of those after it has been built. -/
def LowersInTurn (d : Descriptor) (singlyLinked : Bool) (lowerItem : Value → ConversionM Slot)
    (m : Memory) (items : List Value) : Prop :=
  ∀ before item after head s, items = before ++ item :: after →
    buildList d singlyLinked lowerItem (.array after) m = .ok head s →
    (lowerItem item).Gives s (fun _ _ => True) fun _ _ => False

/-- `t` holds the nodes of a list that was built in `m`. The word of each node is what its item was
lowered to. -/
structure Built (d : Descriptor) (singlyLinked : Bool) (lowerItem : Value → ConversionM Slot)
    (m : Memory) (items : List Value) (t : Heap) (nodes : List Nat) : Prop where
  strung : t.Strung singlyLinked nodes
  length_eq : nodes.length = items.length
  fresh : ∀ a ∈ nodes, m.heap.size ≤ a
  word : ∀ before item after, items = before ++ item :: after → ∃ a head s u,
    nodes[before.length]? = some a ∧
      buildList d singlyLinked lowerItem (.array after) m = .ok head s ∧
      lowerItem item s = .ok (t.slotAt a 8) u

namespace Built

theorem nil : Built d singlyLinked lowerItem m [] m.heap [] where
  strung := .nil m.heap singlyLinked
  length_eq := rfl
  fresh := by simp
  word := by simp

theorem retains (built : Built d singlyLinked lowerItem m items h nodes) (retains : h.Retains g) :
    Built d singlyLinked lowerItem m items g nodes where
  strung := built.strung.retains retains
  length_eq := built.length_eq
  fresh := built.fresh
  word before item after split := by
    obtain ⟨a, head, s, u, found, run, lowered⟩ := built.word before item after split
    have large := sixteen_le_nodeSize singlyLinked
    have live := built.strung.live a (List.mem_of_getElem? found)
    have same : g.slotAt a 8 = h.slotAt a 8 :=
      Heap.Strung.word_eq retains live (by simp only [Block.stop]; omega)
    rw [← same] at lowered
    exact ⟨a, head, s, u, found, run, lowered⟩

theorem prepend {item : Value} {slot : Slot} {head : Slot} {s u : Memory}
    (built : Built d singlyLinked lowerItem m items g nodes)
    (run : buildList d singlyLinked lowerItem (.array items) m = .ok head s)
    (lowered : lowerItem item s = .ok slot u) (above : m.heap.size ≤ g.size)
    (prepended : Prepended g t singlyLinked slot (nodes.headD 0) node)
    (ties : singlyLinked = false → t.Ties (nodes.headD 0) node) :
    Built d singlyLinked lowerItem m (item :: items) t (node :: nodes) where
  strung := built.strung.prepend prepended ties
  length_eq := congrArg (· + 1) built.length_eq
  fresh := List.forall_mem_cons.2 ⟨Nat.le_trans above prepended.after, built.fresh⟩
  word before x after split := by
    cases before with
    | nil =>
      obtain ⟨rfl, rfl⟩ := List.cons.inj split
      rw [← prepended.item_eq] at lowered
      exact ⟨node, head, s, u, rfl, run, lowered⟩
    | cons first before =>
      obtain ⟨-, split⟩ := List.cons.inj split
      obtain ⟨a, head, s, u, found, run, lowered⟩ := built.word before x after split
      have live := built.strung.live a (List.mem_of_getElem? found)
      have same : t.slotAt a 8 = g.slotAt a 8 := Heap.slotAt_congr fun y from_a to_a =>
        Heap.Strung.front_eq prepended built.strung.live_head live from_a (by omega)
      rw [← same] at lowered
      exact ⟨a, head, s, u, found, run, lowered⟩

end Built

theorem LowersInTurn.rest {item : Value}
    (lowers : LowersInTurn d singlyLinked lowerItem m (item :: items)) :
    LowersInTurn d singlyLinked lowerItem m items := fun before x after head s split =>
  lowers (item :: before) x after head s (congrArg (item :: ·) split)

/-- One more item: it is lowered behind the chain that is there, and its node is put in front. -/
theorem linkItems_built_step {item : Value} {s : Memory} (confines : Confines (lowerItem item) element)
    (lowers : (lowerItem item).Gives s (fun _ _ => True) fun _ _ => False)
    (run : linkItems d singlyLinked lowerItem 0 items.reverse m = .ok (nodes.headD 0) s)
    (above : m.heap.size ≤ s.heap.size) (built : Built d singlyLinked lowerItem m items s.heap nodes) :
    (linkItems d singlyLinked lowerItem (nodes.headD 0) [item]).Gives s
      (fun head t => ∃ nodes, head = nodes.headD 0 ∧ m.heap.size ≤ t.heap.size ∧
        Built d singlyLinked lowerItem m (item :: items) t.heap nodes)
      fun _ _ => False := by
  have before : buildList d singlyLinked lowerItem (.array items) m = .ok (.ofNat (nodes.headD 0)) s :=
    bind_of_ok run
  rw [linkItems, gives_bind, gives_attempt]
  refine ((lowers.both (gives_self _ s)).both (confines s)).mono ?_ ?_
  · rintro slot u ⟨⟨-, lowered⟩, blocks, -, adds⟩
    have kept := built.retains adds.toRetains
    have larger := Nat.le_trans above adds.size_le
    rw [gives_bind, gives_touch]
    refine (prependNode_built kept.strung).mono ?_ fun _ _ never => never
    rintro node t ⟨prepended, ties⟩
    exact ⟨node :: nodes, rfl, Nat.le_trans larger prepended.size_le,
      kept.prepend before lowered larger prepended ties⟩
  · rintro fault u ⟨⟨never, -⟩, -⟩
    exact never.elim

theorem linkItems_built (confines : ∀ v, Confines (lowerItem v) element)
    (lowers : LowersInTurn d singlyLinked lowerItem m items) :
    (linkItems d singlyLinked lowerItem 0 items.reverse).Gives m
      (fun head t => ∃ nodes, head = nodes.headD 0 ∧ m.heap.size ≤ t.heap.size ∧
        Built d singlyLinked lowerItem m items t.heap nodes)
      fun _ _ => False := by
  induction items with
  | nil => exact ⟨[], rfl, Nat.le_refl _, .nil⟩
  | cons item items ih =>
    rw [List.reverse_cons, linkItems_append, gives_bind]
    refine ((ih lowers.rest).both (gives_self _ m)).mono ?_ fun _ _ never => never.1
    rintro head s ⟨⟨nodes, rfl, above, built⟩, run⟩
    have turn := lowers [] item items (.ofNat (nodes.headD 0)) s rfl (bind_of_ok run)
    exact linkItems_built_step (confines item) turn run above built

theorem lower_string_gives (s : String) (filename pointer : Bool) (m : Memory) :
    (lower env (.basic (.string filename) pointer) (.string s) false).Gives m (fun _ _ => True)
      fun _ _ => False := by
  have lowered : lower env (.basic (.string filename) pointer) (.string s) false =
      do return .ofNat (← Memory.touch (Heap.duplicate s)) := rfl
  rw [lowered, gives_bind, gives_touch]
  exact Heap.gives_allocBytes.mono (fun _ _ _ => trivial) fun _ _ never => never

/-- If each item is lowered when its turn comes, then a list of items is the address of the first of as
many nodes as there are items, all of them new, and it is null if there are none. The nodes are strung in
the order of the items, and the word of each is what its item was lowered to behind the list of those
after it. -/
theorem nodes_of_list (env : Environment) (element : Descriptor) (singlyLinked pointer : Bool)
    (m : Memory) (items : List Value)
    (lowers : ∀ before item after head s, items = before ++ item :: after →
      lowerList env (.list element singlyLinked pointer) (.array after) m = .ok head s →
      (lower env element item false).Gives s (fun _ _ => True) fun _ _ => False) :
    (lowerList env (.list element singlyLinked pointer) (.array items)).Gives m
      (fun slot t => ∃ nodes, slot = .ofNat (nodes.headD 0) ∧ nodes.length = items.length ∧
        t.heap.Strung singlyLinked nodes ∧ (∀ a ∈ nodes, m.heap.size ≤ a) ∧
        ∀ before item after, items = before ++ item :: after → ∃ a head s u,
          nodes[before.length]? = some a ∧
            lowerList env (.list element singlyLinked pointer) (.array after) m = .ok head s ∧
            lower env element item false s = .ok (t.heap.slotAt a 8) u)
      (fun _ _ => False) fun halt => halt = .exhausted ∧ items ≠ [] := by
  cases items with
  | nil => exact ⟨[], rfl, rfl, .nil m.heap singlyLinked, by simp, by simp⟩
  | cons item items =>
    have links := linkItems_built (d := .list element singlyLinked pointer)
      (fun item => lower_confines element item false) lowers
    rw [lowerList, buildList, gives_bind]
    refine (links.mono ?_ fun _ _ never => never).mono_halted fun _ full =>
      ⟨full, List.cons_ne_nil item items⟩
    rintro head t ⟨nodes, rfl, -, built⟩
    rw [gives_pure]
    exact ⟨nodes, rfl, built.length_eq, built.strung, built.fresh, built.word⟩

theorem nodes_of_strings :
    (lowerList ⟨.initial, .pin⟩ (.list (.basic (.string false) true) false true)
      (.array [.string "a", .string "b"])).Gives .empty
      (fun slot t => ∃ first second, slot = .ofNat first ∧ t.heap.Strung false [first, second])
      fun _ _ => False := by
  -- With the memory as a variable the elaborator does not try to run the action.
  generalize Memory.empty = m
  have lowers : ∀ item ∈ [Value.string "a", .string "b"], ∀ s,
      (lower ⟨.initial, .pin⟩ (.basic (.string false) true) item false).Gives s
        (fun _ _ => True) fun _ _ => False := by
    intro item listed s
    simp only [List.mem_cons, List.not_mem_nil, or_false] at listed
    rcases listed with rfl | rfl
    · exact lower_string_gives "a" false true s
    · exact lower_string_gives "b" false true s
  have built := nodes_of_list ⟨.initial, .pin⟩ (.basic (.string false) true) false true m
    [.string "a", .string "b"] fun before item after _ s split _ =>
      lowers item (split ▸ List.mem_append_right _ (List.mem_cons_self ..)) s
  refine (built.mono ?_ fun _ _ never => never).mono_halted fun _ full => full.1
  rintro slot t ⟨nodes, rfl, two, strung, -, -⟩
  obtain ⟨first, second, rfl⟩ := List.length_eq_two.1 two
  exact ⟨first, second, rfl, strung⟩

end Building

end ForeignCall
