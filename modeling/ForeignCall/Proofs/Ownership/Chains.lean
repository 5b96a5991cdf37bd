import ForeignCall.Proofs.Ownership.Buffers

/-!
Building chains: what a list owns while nodes are put in front of it.

In a doubly linked list the node that was first gets an address of the new one. That word is beyond
the first sixteen bytes, which are all that a walk reads of a node.
-/

set_option autoImplicit false

namespace ForeignCall

variable {h g k t : Heap} {d element : Descriptor} {singlyLinked : Bool} {head node : Nat}
  {item : Slot} {links : List Link} {p : Footprint}

/-! ### Putting a node in front -/

/-- `t` is `g` with a node for `item` in front of the chain at `head`. -/
structure Prepended (g t : Heap) (singlyLinked : Bool) (item : Slot) (head node : Nat) : Prop where
  grows : ∀ {h : Heap} {blocks : List Block}, h.Grows g blocks → (head ≠ 0 → h.size ≤ head) →
    h.Grows t (blocks ++ [⟨node, nodeSize singlyLinked⟩])
  item_eq : t.slotAt node 8 = item
  next_eq : t.slotAt (node + nextOffset) 8 = .ofNat head
  after : g.size ≤ node
  near : node ≤ g.size + 7
  size_eq : t.size = node + nodeSize singlyLinked
  keeps_live : ∀ {c : Block}, g.Live c → t.Live c
  live : t.Live ⟨node, nodeSize singlyLinked⟩
  byteAt_eq : ∀ x < g.size,
    (head ≠ 0 → x < head + previousOffset ∨ head + nodeSize singlyLinked ≤ x) →
      t.byteAt x = g.byteAt x

theorem Prepended.size_le (prepended : Prepended g t singlyLinked item head node) :
    g.size ≤ t.size := by
  rw [prepended.size_eq]
  exact Nat.le_trans prepended.after (Nat.le_add_right _ _)

def Heap.withNode (e : Heap) (node : Nat) (item : Slot) (head : Nat) : Heap :=
  (e.overwritten node (item.toBytes 8)).overwritten (node + nextOffset) ((Slot.ofNat head).toBytes 8)

section WithNode

variable {e : Heap}

theorem Heap.accessible_node (item : Slot) (within : e.Accessible node 16) : e.Accessible node 8 ∧
    (e.overwritten node (item.toBytes 8)).Accessible (node + nextOffset) 8 := by
  simp only [Accessible, size_overwritten, nextOffset] at *
  omega

theorem Heap.byteAt_withNode (within : e.Accessible node 16) {x : Nat}
    (outside : x < node ∨ node + 16 ≤ x) : (e.withNode node item head).byteAt x = e.byteAt x := by
  obtain ⟨first, second⟩ := accessible_node item within
  rw [withNode, byteAt_stored_of_outside _ (Nat.le_refl 8) second (by simp only [nextOffset]; omega),
    byteAt_stored_of_outside _ (Nat.le_refl 8) first (by omega)]

theorem Heap.slotAt_withNode (item : Slot) (head : Nat) (within : e.Accessible node 16) :
    (e.withNode node item head).slotAt node 8 = item ∧
      (e.withNode node item head).slotAt (node + nextOffset) 8 = .ofNat head := by
  obtain ⟨first, second⟩ := accessible_node item within
  refine ⟨?_, slotAt_stored _ second⟩
  have kept : (e.withNode node item head).slotAt node 8 =
      (e.overwritten node (item.toBytes 8)).slotAt node 8 :=
    slotAt_congr fun x above below =>
      byteAt_stored_of_outside _ (Nat.le_refl 8) second (by simp only [nextOffset]; omega)
  rw [kept, slotAt_stored item first]

theorem Heap.Grows.withNode {blocks : List Block} (item : Slot) (head : Nat) (grows : h.Grows e blocks)
    (within : e.Accessible node 16) (beyond : h.size ≤ node) :
    h.Grows (e.withNode node item head) blocks := by
  obtain ⟨first, second⟩ := accessible_node item within
  refine (grows.overwritten ?_ beyond).overwritten ?_ (Nat.le_trans beyond (Nat.le_add_right _ _))
  · rw [Slot.length_toBytes]
    exact first
  · rw [Slot.length_toBytes]
    exact second

end WithNode

theorem prepended_extend (item : Slot) (head : Nat) {size : Nat} (same : size = nodeSize singlyLinked)
    (after : g.size ≤ node) (near : node ≤ g.size + 7)
    (positive : 0 < size) (room : node + size ≤ Heap.capacity) :
    Prepended g ((g.extend node size after positive room).withNode node item head) singlyLinked item
        head node ∧
      g.Grows ((g.extend node size after positive room).withNode node item head)
        [⟨node, nodeSize singlyLinked⟩] := by
  subst same
  have large := sixteen_le_nodeSize singlyLinked
  have gained := Heap.Grows.extend after positive room
  have live := gained.live (List.mem_singleton_self _)
  have within : (g.extend node _ after positive room).Accessible node 16 :=
    live.accessible_start large
  obtain ⟨item_eq, next_eq⟩ := Heap.slotAt_withNode item head within
  have grows := gained.withNode item head within after
  refine ⟨⟨fun before _ => ?_, item_eq, next_eq, after, near, ?_, grows.keeps_live,
    grows.live (List.mem_singleton_self _), fun x below _ => ?_⟩, grows⟩
  · exact (before.trans gained).withNode item head within (Nat.le_trans before.size_le after)
  · simp only [Heap.withNode, Heap.size_overwritten, Heap.size_extend]
  · rw [Heap.byteAt_withNode within (by omega), Heap.byteAt_extend]

theorem Prepended.link {bytes : List UInt8} (prepended : Prepended g t false item head node)
    (chained : head ≠ 0) (live : g.Live ⟨head, nodeSize false⟩)
    (grows : g.Grows t [⟨node, nodeSize false⟩]) (length : bytes.length = 8) :
    t.Accessible (head + previousOffset) 8 ∧
      Prepended g (t.overwritten (head + previousOffset) bytes) false item head node := by
  have inside := live.inside
  have after := grows.fresh _ (List.mem_singleton_self _)
  have size : nodeSize false = 24 := rfl
  simp only [Block.stop] at inside after
  have within : t.Accessible (head + previousOffset) 8 := by
    apply (grows.keeps_live live).accessible (Nat.le_add_right _ _)
    simp only [Block.stop, previousOffset, size]
    omega
  rw [← length] at within ⊢
  refine ⟨within, ?_⟩
  have beyond : ∀ x, g.size ≤ x →
      (t.overwritten (head + previousOffset) bytes).byteAt x = t.byteAt x := by
    intro x above
    rw [Heap.byteAt_overwritten within, if_neg (by simp only [length, previousOffset]; omega)]
  refine ⟨fun before fresh => ?_, ?_, ?_, prepended.after, prepended.near, ?_, prepended.keeps_live,
    prepended.live, fun x below outside => ?_⟩
  · exact (prepended.grows before fresh).overwritten within
      (Nat.le_trans (fresh chained) (Nat.le_add_right _ _))
  · rw [Heap.slotAt_congr fun x above _ => beyond x (by omega), prepended.item_eq]
  · rw [Heap.slotAt_congr fun x above _ => beyond x (by omega), prepended.next_eq]
  · rw [Heap.size_overwritten]
    exact prepended.size_eq
  · have apart := outside chained
    rw [Heap.byteAt_overwritten within, if_neg (by simp only [length, previousOffset] at *; omega)]
    exact prepended.byteAt_eq x below outside

theorem linkPrevious_gives {failed : HeapFault → Heap → Prop} {halted : Halt → Prop}
    (prepended : Prepended g t singlyLinked item head node)
    (grows : g.Grows t [⟨node, nodeSize singlyLinked⟩])
    (chained : head ≠ 0 → g.Live ⟨head, nodeSize singlyLinked⟩) :
    (do if !singlyLinked && head != 0 then Heap.storePointer (head + previousOffset) node
        return node : HeapM Nat).Gives t
      (fun node t => Prepended g t singlyLinked item head node) failed halted := by
  split
  · rename_i linked
    simp only [Bool.and_eq_true, Bool.not_eq_true', bne_iff_ne] at linked
    obtain ⟨rfl, nonzero⟩ := linked
    have linked := prepended.link nonzero (chained nonzero) grows
      (Slot.length_toBytes (.ofNat node) 8)
    exact Action.gives_bind.2 (Action.gives_of_ok (Heap.storePointer_eq node linked.1) linked.2)
  · exact prepended

theorem prependNode_gives {failed : HeapFault → Heap → Prop} {halted : Halt → Prop}
    (chained : head ≠ 0 → g.Live ⟨head, nodeSize singlyLinked⟩)
    (full : Heap.capacity < g.size + 7 + nodeSize singlyLinked → halted .exhausted) :
    (prependNode singlyLinked item head).Gives g
      (fun node t => Prepended g t singlyLinked item head node) failed halted := by
  have size : max (nodeSize singlyLinked) 1 = nodeSize singlyLinked :=
    Nat.max_eq_left (Nat.le_trans (by decide) (sixteen_le_nodeSize singlyLinked))
  rw [prependNode, Action.gives_bind]
  apply Heap.gives_alloc_unless
  · intro node after positive room near
    obtain ⟨prepended, grows⟩ :=
      prepended_extend item head size after near positive room
    have live := (Heap.Grows.extend after positive room).live (List.mem_singleton_self _)
    have large := sixteen_le_nodeSize singlyLinked
    have within : (g.extend node _ after positive room).Accessible node 16 :=
      live.accessible_start (Nat.le_trans large (Nat.le_max_left _ 1))
    obtain ⟨first, second⟩ := Heap.accessible_node item within
    rw [Action.gives_bind]
    apply Action.gives_of_ok (Heap.store_eq item first)
    rw [Action.gives_bind]
    apply Action.gives_of_ok (Heap.storePointer_eq head second)
    rw [← Heap.withNode]
    exact linkPrevious_gives prepended grows chained
  · rwa [size]

theorem Prepended.spares {c : Block} (prepended : Prepended g t singlyLinked item head node)
    (chained : head ≠ 0 → g.Live ⟨head, nodeSize singlyLinked⟩) (live : g.Live c)
    (other : head ≠ 0 → c ≠ ⟨head, nodeSize singlyLinked⟩) {x : Nat} (above : c.address ≤ x)
    (below : x < c.stop) : t.byteAt x = g.byteAt x := by
  have inside := live.inside
  apply prepended.byteAt_eq x (by omega)
  intro nonzero
  have large := sixteen_le_nodeSize singlyLinked
  rcases live.apart (chained nonzero) (other nonzero) with before | after
  · simp only at before
    omega
  · simp only [Block.stop] at after
    omega

section

variable {part : Slot → Footprint → Prop} {size : Nat} (linked : Linked h part size head links)

include linked

theorem Linked.head_mem (nonzero : head ≠ 0) : ⟨head, size⟩ ∈ links.map (·.node) := by
  cases links with
  | nil => exact absurd linked nonzero
  | cons l rest => simp [linked.1]

theorem Linked.live_head (live : ∀ l ∈ links, g.Live l.node) (nonzero : head ≠ 0) :
    g.Live ⟨head, size⟩ := by
  obtain ⟨l, listed, same⟩ := List.mem_map.1 (linked.head_mem nonzero)
  exact same ▸ live l listed

theorem Linked.toNat_head (live : ∀ l ∈ links, g.Live l.node) : (Slot.ofNat head).toNat = head := by
  by_cases zero : head = 0
  · rw [zero]
    rfl
  · exact (linked.live_head live zero).toNat_ofNat

end

/-- What is linked stays linked when the heap is prolonged. -/
theorem Linked.prolongs {size : Nat} {item item' : Slot → Footprint → Prop} (large : 16 ≤ size)
    (linked : Linked g item size head links) (prolongs : g.Prolongs k)
    (items : ∀ l ∈ links, ∀ s, item s l.item → item' s l.item) : Linked k item' size head links := by
  refine linked.frame (fun _ _ inside => Nat.le_trans inside prolongs.size_le)
    (fun l listed x _ below => ?_) items
  have inside := linked.node_inside l listed
  have sized := linked.node_size l listed
  simp only [Block.stop] at inside
  exact prolongs.byteAt_eq x (by omega)

/-- A chain stays linked behind the node that is put in front of it. -/
theorem Prepended.linked {item item' : Slot → Footprint → Prop} {slot : Slot}
    (prepended : Prepended k t singlyLinked slot head node)
    (linked : Linked k item (nodeSize singlyLinked) head links) (live : ∀ l ∈ links, k.Live l.node)
    (items : ∀ l ∈ links, ∀ s, item s l.item → item' s l.item) :
    Linked t item' (nodeSize singlyLinked) head links := by
  have large := sixteen_le_nodeSize singlyLinked
  have chained := linked.live_head live
  refine linked.frame (fun _ _ inside => Nat.le_trans inside prepended.size_le)
    (fun l listed x above below => ?_) items
  have inside := linked.node_inside l listed
  have sized := linked.node_size l listed
  simp only [Block.stop] at inside
  by_cases first : l.node = ⟨head, nodeSize singlyLinked⟩
  · refine prepended.byteAt_eq x (by omega) fun _ => .inl ?_
    rwa [first] at below
  · exact prepended.spares chained (live l listed) (fun _ => first) above
      (by simp only [Block.stop]; omega)

/-! ### Chains -/

/-- `g` came from `h` by building the chain at `head`. -/
structure Chain (h g : Heap) (element : Descriptor) (singlyLinked : Bool) (head : Nat)
    (links : List Link) : Prop where
  grows : h.Grows g (links.flatMap (·.item.all) ++ links.map (·.node))
  linked : Linked g (OwnsItem g element) (nodeSize singlyLinked) head links

namespace Chain

theorem nil (h : Heap) : Chain h h element singlyLinked 0 [] where
  grows := .refl h
  linked := rfl

theorem live_node {l : Link} (chain : Chain h g element singlyLinked head links)
    (listed : l ∈ links) : g.Live l.node :=
  chain.grows.live (List.mem_append_right _ (List.mem_map.2 ⟨l, listed, rfl⟩))

theorem live_item {l : Link} (chain : Chain h g element singlyLinked head links)
    (listed : l ∈ links) : ∀ c ∈ l.item.all, g.Live c := fun _ part =>
  chain.grows.live (List.mem_append_left _ (List.mem_flatMap.2 ⟨l, listed, part⟩))

theorem live_head (chain : Chain h g element singlyLinked head links) (nonzero : head ≠ 0) :
    g.Live ⟨head, nodeSize singlyLinked⟩ :=
  chain.linked.live_head (fun _ => chain.live_node) nonzero

theorem head_not_item {l : Link} (chain : Chain h g element singlyLinked head links)
    (nonzero : head ≠ 0) (listed : l ∈ links) : ⟨head, nodeSize singlyLinked⟩ ∉ l.item.all := by
  intro part
  have shared := List.disjoint_of_nodup_append chain.grows.nodup
  exact shared (List.mem_flatMap.2 ⟨l, listed, part⟩) (chain.linked.head_mem nonzero)

theorem toNat_head (chain : Chain h g element singlyLinked head links) :
    (Slot.ofNat head).toNat = head := chain.linked.toNat_head fun _ => chain.live_node

theorem kept (chain : Chain h g element singlyLinked head links) (grows : g.Grows k []) :
    Chain h k element singlyLinked head links where
  grows := by simpa using chain.grows.trans grows
  linked := chain.linked.prolongs (sixteen_le_nodeSize singlyLinked) grows.toProlongs
    fun _ listed _ owned => owned.of_grows grows (chain.live_item listed)

theorem owns (chain : Chain h g element singlyLinked head links) (pointer : Bool) (count : Nat) :
    Owns g (.list element singlyLinked pointer) (.ofNat head) count
      ⟨links.map (·.node), links.flatMap (·.item.all)⟩ := by
  have linked := chain.linked
  by_cases zero : head = 0
  · subst zero
    cases links with
    | nil => exact owns_empty_of_null rfl
    | cons l rest =>
      have guarded := linked.2.1
      simp [Heap.guardSize] at guarded
  · refine (owns_list (chain.live_head zero).isNull_ofNat).2 ⟨links, rfl, ?_, ?_⟩
    · exact (List.nodup_append.1 chain.grows.nodup).2.1
    · rwa [chain.toNat_head]

theorem prepend (chain : Chain h g element singlyLinked head links)
    (grows : g.Grows k p.all) (owned : OwnsItem k element item p)
    (prepended : Prepended k t singlyLinked item head node) :
    Chain h t element singlyLinked node (⟨⟨node, nodeSize singlyLinked⟩, p⟩ :: links) := by
  have chained : head ≠ 0 → k.Live ⟨head, nodeSize singlyLinked⟩ := fun nonzero =>
    grows.keeps_live (chain.live_head nonzero)
  have size_le := prepended.size_le
  have large := sixteen_le_nodeSize singlyLinked
  have gained := prepended.grows (chain.grows.trans grows) fun nonzero =>
    chain.grows.fresh _ (List.mem_append_right _ (chain.linked.head_mem nonzero))
  have inside := (gained.live (List.mem_append_right _ (List.mem_singleton_self _))).inside
  refine ⟨gained.perm ?_, rfl, inside.1, inside.2.2, ?_, ?_⟩
  · rw [List.perm_iff_count]
    intro c
    simp only [List.flatMap_cons, List.map_cons, List.count_append, List.count_cons, List.count_nil]
    omega
  · rw [prepended.item_eq]
    refine owned.frame size_le fun c part x above below => ?_
    refine prepended.spares chained (grows.live part) (fun nonzero same => ?_) above below
    exact grows.not_live part (same ▸ chain.live_head nonzero)
  · rw [prepended.next_eq, chain.toNat_head]
    have behind := chain.linked.prolongs large grows.toProlongs fun _ listed _ part =>
      part.of_grows grows (chain.live_item listed)
    refine prepended.linked behind (fun l listed => grows.keeps_live (chain.live_node listed))
      fun l listed s part => part.frame size_le fun c piece x above below => ?_
    refine prepended.spares chained (grows.keeps_live (chain.live_item listed c piece))
      (fun nonzero same => ?_) above below
    exact chain.head_not_item nonzero listed (same ▸ piece)

end Chain

/-! ### Linking items -/

section Linking

variable {pointer : Bool} {lowerItem : Value → ConversionM Slot} {m : Memory}
  {allocates : Value → Bool}

theorem linkItems_gives {items : List Value}
    (lowers : ∀ v, Lowers (lowerItem v) element (allocates v)) (measured : element.isMeasured = true)
    (chain : Chain h m.heap element singlyLinked head links) :
    (linkItems (.list element singlyLinked pointer) singlyLinked lowerItem head items).Gives m
      (fun head t => ∃ more, more.length = links.length + items.length ∧
        Chain h t.heap element singlyLinked head more)
      (fun _ t => h.Grows t.heap []) := by
  induction items generalizing m head links with
  | nil => exact ⟨links, rfl, chain⟩
  | cons item rest ih =>
    rw [linkItems, Action.gives_bind, Action.gives_attempt]
    apply (lowers item m).mono
    · rintro slot t ⟨n, p, owned, grows, -⟩
      rw [Action.gives_bind, Action.gives_touch]
      have chained := fun nonzero : head ≠ 0 => grows.keeps_live (chain.live_head nonzero)
      refine Action.Gives.mono (prependNode_gives chained fun _ => rfl) ?_ fun _ _ never => never
      intro node e prepended
      have next := ih (m := { t with heap := e }) (chain.prepend grows
        ⟨n, owned, Descriptor.ended_of_isMeasured measured _ _ _ _⟩ prepended)
      rw [List.length_cons, Nat.add_assoc, Nat.add_comm 1] at next
      exact next
    · rintro fault t grows
      have given := chain.kept grows
      have frees : Heap.Frees (freeValue (.list element singlyLinked pointer) (.ofNat head) .nothing
          .input none) t.heap _ :=
        release_owned (given.owns pointer 0) trivial (by simp [Holding.of]) given.grows.keeps
      obtain ⟨e, run, sheds⟩ := frees
      simp only [Action.gives_bind, Action.gives_attempt, Action.gives_onHeap, Action.gives_fail]
      apply Action.gives_of_ok run
      exact given.grows.sheds_all sheds

theorem buildList_lowers {v : Value} (lowers : ∀ v, Lowers (lowerItem v) element (allocates v))
    (measured : element.isMeasured = true) :
    Lowers (buildList (.list element singlyLinked pointer) singlyLinked lowerItem v)
      (.list element singlyLinked pointer) (v.items?.any (!·.isEmpty)) := by
  intro m
  cases v with
  | array items =>
    rw [buildList, Action.gives_bind]
    refine (linkItems_gives lowers measured (.nil m.heap)).mono ?_ fun _ _ grows => grows
    rintro head t ⟨links, counted, chain⟩
    refine ⟨0, _, chain.owns pointer 0, chain.grows, ?_⟩
    rw [List.length_nil, Nat.zero_add, List.length_reverse] at counted
    cases links <;> cases items <;> simp_all [Value.items?]
  | _ => exact Heap.Grows.refl m.heap

end Linking

end ForeignCall
