import NodeFormula.Selection
import NodeFormula.Proofs.Graphs
import Mathlib.Data.List.Perm.Subperm

/-!
# Nodes that can be reached

A search that lists what it has visited comes to all nodes that links lead to, and to no other
ones, also where the links run in circles.  So what is selected from a node on are the nodes that
lead to it, and those that it leads to.
-/

namespace NodeFormula.NodeTree

open List Relation

variable {tree : NodeTree} {next : Nat → List Nat} {other : Nat} {after : List Nat}

/-! ## Searches -/

/-- Nodes below the bound are listed, each of them once. -/
def Listed (bound : Nat) (visited : List Nat) : Prop :=
  visited.Nodup ∧ visited ⊆ range bound

/-- What a search from some nodes on has visited at its end. -/
structure Search (next : Nat → List Nat) (bound : Nat) (starts visited after : List Nat) :
    Prop where
  kept : visited <+: after
  found : starts ⊆ after
  sound : ∀ node ∈ after, node ∈ visited ∨
    ∃ start ∈ starts, ReflTransGen (fun node other => other ∈ next node) start node
  closed : ∀ node ∈ after, node ∈ visited ∨ next node ⊆ after
  listed : Listed bound after

namespace Search

theorem nothing (found : starts ⊆ visited) (listed : Listed bound visited) :
    Search next bound starts visited visited :=
  ⟨prefix_rfl, found, fun _ => .inl, fun _ => .inl, listed⟩

theorem append (early : Search next bound starts visited middle)
    (late : Search next bound others middle after) :
    Search next bound (starts ++ others) visited after := by
  refine ⟨early.kept.trans late.kept, ?_, ?_, ?_, late.listed⟩
  · exact append_subset.2 ⟨fun _ member => late.kept.subset (early.found member), late.found⟩
  · intro node member
    rcases late.sound node member with isOld | ⟨start, isStart, leads⟩
    · refine (early.sound node isOld).imp_right ?_
      rintro ⟨start, isStart, leads⟩
      exact ⟨start, mem_append_left _ isStart, leads⟩
    · exact .inr ⟨start, mem_append_right _ isStart, leads⟩
  · intro node member
    rcases late.closed node member with isOld | followed
    · exact (early.closed node isOld).imp_right fun followed _ isNext =>
        late.kept.subset (followed isNext)
    · exact .inr followed

theorem enter (search : Search next bound (next node) (visited ++ [node]) after) :
    Search next bound [node] visited after := by
  have isThere : node ∈ after := search.kept.subset (mem_append_right _ (mem_singleton_self node))
  refine ⟨(prefix_append ..).trans search.kept, by simpa using isThere, ?_, ?_, search.listed⟩
  · intro other member
    rcases search.sound other member with isOld | ⟨start, isNext, leads⟩
    · refine (mem_append.1 isOld).imp_right fun here => ⟨node, mem_singleton_self node, ?_⟩
      rw [eq_of_mem_singleton here]
    · exact .inr ⟨node, mem_singleton_self node, .head isNext leads⟩
  · intro other member
    rcases search.closed other member with isOld | followed
    · refine (mem_append.1 isOld).imp_right fun here => ?_
      rw [eq_of_mem_singleton here]
      exact search.found
    · exact .inr followed

end Search

theorem Listed.length_le (listed : Listed bound visited) : visited.length ≤ bound := by
  simpa using (subperm_of_subset listed.1 listed.2).length_le

theorem Listed.concat (listed : Listed bound visited) (isNew : node ∉ visited)
    (inside : node < bound) : Listed bound (visited ++ [node]) := by
  refine ⟨nodup_append.2 ⟨listed.1, pairwise_singleton .., ?_⟩, ?_⟩
  · rintro _ isOld _ here rfl
    exact isNew (eq_of_mem_singleton here ▸ isOld)
  · exact append_subset.2 ⟨listed.2, by simpa using inside⟩

theorem foldl_search (searches : ∀ {visited node}, Listed bound visited → node < bound →
      bound < fuel + visited.length → Search next bound [node] visited (step visited node))
    (listed : Listed bound visited) (inside : ∀ node ∈ starts, node < bound)
    (enough : bound < fuel + visited.length) :
    Search next bound starts visited (starts.foldl step visited) := by
  induction starts generalizing visited with
  | nil => exact .nothing (nil_subset _) listed
  | cons node starts ih =>
    have first := searches listed (inside node mem_cons_self) enough
    have longer := first.kept.length_le
    exact first.append
      (ih first.listed (fun other member => inside other (mem_cons_of_mem _ member)) (by omega))

/-- Every call takes one step of fuel and lists one node, so that the fuel is never used up. -/
theorem reach_search (inside : ∀ node, ∀ other ∈ next node, other < bound)
    (listed : Listed bound visited) (isNode : node < bound)
    (enough : bound < fuel + visited.length) :
    Search next bound [node] visited (reach next fuel visited node) := by
  induction fuel generalizing visited node with
  | zero =>
    have := listed.length_le
    omega
  | succ fuel ih =>
    rw [reach]
    split
    next isOld => exact .nothing (by simpa using isOld) listed
    next isNew =>
      refine .enter (foldl_search ih (listed.concat (by simpa using isNew) isNode) (inside node) ?_)
      rw [length_append, length_singleton]
      omega

theorem mem_reach (inside : ∀ node, ∀ other ∈ next node, other < bound) (isNode : node < bound) :
    other ∈ reach next (bound + 1) [] node ↔
      ReflTransGen (fun node other => other ∈ next node) node other := by
  have search : Search next bound [node] [] (reach next (bound + 1) [] node) :=
    reach_search inside ⟨nodup_nil, by simp⟩ isNode (Nat.lt_succ_self _)
  constructor
  · intro member
    simpa using search.sound other member
  · intro leads
    induction leads with
    | refl => exact search.found (mem_singleton_self node)
    | tail _ isNext ih => exact ((search.closed _ ih).resolve_left not_mem_nil) isNext

/-! ## Links -/

/-- Every link leads from an output of a node to an input of one. -/
def Attached (tree : NodeTree) : Prop :=
  ∀ link ∈ tree.links, tree.Has link.source.node .output link.source.index ∧
    tree.Has link.target.node .input link.target.index

/-- Links lead from the first node to the second one, which may be the same. -/
def Leads (tree : NodeTree) : Nat → Nat → Prop := ReflTransGen tree.Feeds

theorem Attached.lt (attached : tree.Attached) (feeds : tree.Feeds node other) :
    node < tree.nodes.length ∧ other < tree.nodes.length := by
  obtain ⟨link, isLink, rfl, rfl⟩ := feeds
  exact ⟨(attached link isLink).1.lt, (attached link isLink).2.lt⟩

theorem mem_neighbours {near : Link → SocketRef}
    (attached : ∀ link ∈ tree.links, tree.Has (near link).node side (near link).index) :
    other ∈ (if (tree.nodes[node]?.map fun node => (node.sockets side).isEmpty).getD true then []
      else (tree.links.filter fun link => (near link).node == node).map far) ↔
      ∃ link ∈ tree.links, (near link).node = node ∧ far link = other := by
  split
  next bare =>
    simp only [not_mem_nil, false_iff]
    rintro ⟨link, isLink, rfl, _⟩
    obtain ⟨_, isThere, inside⟩ := attached link isLink
    rw [isThere, Option.map_some, Option.getD_some, List.isEmpty_iff] at bare
    rw [bare] at inside
    cases inside
  next => simp [and_assoc]

theorem mem_successors (attached : tree.Attached) :
    other ∈ tree.successors node ↔ tree.Feeds node other :=
  mem_neighbours fun link isLink => (attached link isLink).1

theorem mem_predecessors (attached : tree.Attached) :
    other ∈ tree.predecessors node ↔ tree.Feeds other node := by
  refine (mem_neighbours fun link isLink => (attached link isLink).2).trans ?_
  simp only [Feeds, and_comm]

theorem mem_descendants (attached : tree.Attached) (isNode : active < tree.nodes.length) :
    node ∈ tree.descendants active ↔ tree.Leads active node := by
  rw [descendants, mem_reach _ isNode, Leads]
  · simp only [mem_successors attached]
  · intro node other isNext
    exact (attached.lt ((mem_successors attached).1 isNext)).2

theorem mem_ancestors (attached : tree.Attached) (isNode : active < tree.nodes.length) :
    node ∈ tree.ancestors active ↔ tree.Leads node active := by
  rw [ancestors, mem_reach _ isNode, Leads, ← reflTransGen_swap]
  · simp only [mem_predecessors attached]
  · intro node other isNext
    exact (attached.lt ((mem_predecessors attached).1 isNext)).1

/-! ## Selections -/

open Classical in
/-- The tree with these nodes selected, and no other ones. -/
noncomputable def marked (tree : NodeTree) (marks : Nat → Prop) : NodeTree :=
  { tree with nodes := tree.nodes.mapIdx fun index node => { node with isSelected := marks index } }

theorem deselectAll_eq (tree : NodeTree) : tree.deselectAll = tree.marked fun _ => False := by
  refine congrArg (fun nodes => { tree with nodes }) (ext_getElem? fun index => ?_)
  simp

theorem select_marked (tree : NodeTree) (marks : Nat → Prop) (nodes : List Nat) :
    (tree.marked marks).select nodes = tree.marked fun node => marks node ∨ node ∈ nodes := by
  refine congrArg (fun nodes => { tree with nodes }) (ext_getElem? fun index => ?_)
  cases found : tree.nodes[index]? with
  | none => simp [marked, found]
  | some node => by_cases member : index ∈ nodes <;> simp [marked, found, member]

theorem Attached.marked (attached : tree.Attached) (marks : Nat → Prop) :
    (tree.marked marks).Attached := by
  have has {node index : Nat} {side : Side} (has : tree.Has node side index) :
      (tree.marked marks).Has node side index := by
    obtain ⟨found, isThere, inside⟩ := has
    refine ⟨{ found with isSelected := _ }, by simp [NodeTree.marked, isThere]; rfl, ?_⟩
    cases side <;> exact inside
  intro link isLink
  exact ⟨has (attached link isLink).1, has (attached link isLink).2⟩

theorem length_marked (tree : NodeTree) (marks : Nat → Prop) :
    (tree.marked marks).nodes.length = tree.nodes.length := by
  simp [marked]

/--
A search finds the nodes that links lead to, or from, and these are selected with the active node,
and no other ones.
-/
theorem selectFrom_marks (attached : tree.Attached) (isNode : active < tree.nodes.length) :
    (∀ node, node ∈ tree.ancestors active ↔ tree.Leads node active) ∧
    (∀ node, node ∈ tree.descendants active ↔ tree.Leads active node) ∧
    ∀ children parents, tree.selectFrom active children parents = tree.marked fun node =>
      node = active ∨ children ∧ tree.Leads node active ∨ parents ∧ tree.Leads active node := by
  refine ⟨fun _ => mem_ancestors attached isNode, fun _ => mem_descendants attached isNode, ?_⟩
  intro children parents
  have inside (marks : Nat → Prop) : active < (tree.marked marks).nodes.length := by
    rwa [length_marked]
  have before (marks : Nat → Prop) (node : Nat) :
      node ∈ (tree.marked marks).ancestors active ↔ tree.Leads node active :=
    mem_ancestors (attached.marked marks) (inside marks)
  have behind (marks : Nat → Prop) (node : Nat) :
      node ∈ (tree.marked marks).descendants active ↔ tree.Leads active node :=
    mem_descendants (attached.marked marks) (inside marks)
  rw [selectFrom, deselectAll_eq, select_marked]
  cases children <;> cases parents <;>
    simp [select_marked, before, behind, or_assoc]

/-- Two nodes that feed each other. -/
def circle : NodeTree :=
  let node : Node :=
    ⟨"", "", [], ⟨0, 0⟩, ⟨0, 0⟩, none, false, none, [⟨"", .absent⟩], [⟨"", .absent⟩]⟩
  { empty "" "" with
    nodes := [node, node]
    links := [⟨⟨0, 0, .output, 0⟩, ⟨0, 1, .input, 0⟩⟩, ⟨⟨0, 1, .output, 0⟩, ⟨0, 0, .input, 0⟩⟩] }

theorem selectFrom_marks_circle : circle.Attached ∧ 0 < circle.nodes.length ∧
    circle.selectFrom 0 true false = circle.marked fun node => node = 0 ∨ circle.Leads node 0 := by
  have attached : circle.Attached := by
    intro link isLink
    rcases mem_pair.1 isLink with rfl | rfl <;>
      exact ⟨⟨_, rfl, Nat.one_pos⟩, ⟨_, rfl, Nat.one_pos⟩⟩
  refine ⟨attached, Nat.two_pos, ?_⟩
  simpa using (selectFrom_marks attached Nat.two_pos).2.2 true false

end NodeFormula.NodeTree
