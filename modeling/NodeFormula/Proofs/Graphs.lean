import Mathlib.Logic.Relation
import NodeFormula.Proofs.Hygiene

/-!
# The graphs that are built

Whatever is run, and wherever it stops, the builder holds sockets of the tree that it is in, and
every tree of the forest is a graph in which each link leads from an output to an input and none
leads back.  No input has two links as long as no node is fed twice at the same input.

A link is only made into a node without links that leave it: the one just added, or the output
node of a group.
-/

namespace NodeFormula

open List Operation

variable {tree : NodeTree} {forest : Forest} {builder after : Builder} {item : Item}
  {items : List Item}

def Item.sockets : Item → List SocketRef
  | .socket output => [output]
  | .struct outputs => outputs
  | _ => []

namespace NodeTree

/-- The socket is one of the tree, which has the given number in its forest. -/
def Owns (tree : NodeTree) (number : Nat) (socket : SocketRef) : Prop :=
  socket.tree = number ∧ tree.Has socket.node socket.side socket.index

def Feeds (tree : NodeTree) (source target : Nat) : Prop :=
  ∃ link ∈ tree.links, link.source.node = source ∧ link.target.node = target

/-- Every link leads from an output to an input of the tree, and no way leads back. -/
structure WellFormed (tree : NodeTree) (number : Nat) : Prop where
  source : ∀ link ∈ tree.links, tree.Owns number link.source ∧ link.source.side = .output
  target : ∀ link ∈ tree.links, tree.Owns number link.target ∧ link.target.side = .input
  acyclic : ∀ node, ¬ Relation.TransGen tree.Feeds node node

def Single (tree : NodeTree) : Prop := (tree.links.map (·.target)).Nodup

/-- The tree is well formed, and no input has two links if that is asked for. -/
structure Proper (strict : Prop) (tree : NodeTree) (number : Nat) : Prop where
  wellFormed : tree.WellFormed number
  single : strict → tree.Single

/-! ## Trees -/

section Trees

variable {source target : SocketRef}

theorem Has.lt (has : tree.Has node side index) : node < tree.nodes.length := by
  obtain ⟨_, isThere, _⟩ := has
  exact (List.getElem?_eq_some_iff.1 isThere).1

theorem Embeds.has (embeds : tree.Embeds later) (has : tree.Has node side index) :
    later.Has node side index := by
  obtain ⟨_, isThere, inside⟩ := has
  obtain ⟨kept, isThereStill, same⟩ := embeds.nodes isThere
  exact ⟨kept, isThereStill, by rw [same.2]; exact inside⟩

theorem Proper.embeds (proper : tree.Proper strict number) (embeds : tree.Embeds later)
    (links : later.links = tree.links) : later.Proper strict number := by
  obtain ⟨⟨source, target, acyclic⟩, single⟩ := proper
  have feeds : later.Feeds = tree.Feeds := by
    funext first second
    rw [Feeds, links, Feeds]
  refine ⟨⟨?_, ?_, ?_⟩, ?_⟩
  · intro link member
    obtain ⟨⟨sameTree, has⟩, side⟩ := source link (links ▸ member)
    exact ⟨⟨sameTree, embeds.has has⟩, side⟩
  · intro link member
    obtain ⟨⟨sameTree, has⟩, side⟩ := target link (links ▸ member)
    exact ⟨⟨sameTree, embeds.has has⟩, side⟩
  · rw [feeds]
    exact acyclic
  · intro isStrict
    rw [Single, links]
    exact single isStrict

theorem Feeds.of_addLink (feeds : (tree.addLink link).Feeds first second) :
    tree.Feeds first second ∨ link.source.node = first ∧ link.target.node = second := by
  obtain ⟨other, member, ends⟩ := feeds
  rcases mem_append.1 member with old | new
  · exact .inl ⟨other, old, ends⟩
  · cases mem_singleton.1 new
    exact .inr ends

/-- A way uses a link into a node without links that leave it only at its end. -/
theorem ends_of_addLink (sink : ∀ other ∈ tree.links, other.source.node ≠ link.target.node)
    (way : Relation.TransGen (tree.addLink link).Feeds first second) :
    Relation.TransGen tree.Feeds first second ∨ second = link.target.node := by
  induction way with
  | single feeds =>
    rcases feeds.of_addLink with old | ⟨_, isEnd⟩
    · exact .inl (.single old)
    · exact .inr isEnd.symm
  | tail _ feeds ih =>
    rcases feeds.of_addLink with ⟨other, member, starts, ends⟩ | ⟨_, isEnd⟩
    · rcases ih with before | atEnd
      · exact .inl (before.tail ⟨other, member, starts, ends⟩)
      · exact absurd (starts.trans atEnd) (sink other member)
    · exact .inr isEnd.symm

section

variable (isSource : tree.Owns number source ∧ source.side = .output)
  (isTarget : tree.Owns number target ∧ target.side = .input)
  (sink : ∀ other ∈ tree.links, other.source.node ≠ target.node)
  (apart : source.node ≠ target.node)
include isSource isTarget sink apart

theorem WellFormed.addLink (wellFormed : tree.WellFormed number) :
    (tree.addLink ⟨source, target⟩).WellFormed number := by
  refine ⟨?_, ?_, ?_⟩
  · exact forall_mem_append.2 ⟨wellFormed.source, forall_mem_singleton.2 isSource⟩
  · exact forall_mem_append.2 ⟨wellFormed.target, forall_mem_singleton.2 isTarget⟩
  · intro node way
    rcases ends_of_addLink sink way with before | atEnd
    · exact wellFormed.acyclic node before
    · -- The way would have to leave the target of the new link.
      obtain ⟨_, feeds, _⟩ := Relation.TransGen.head'_iff.1 way
      rcases feeds.of_addLink with ⟨other, member, starts, _⟩ | ⟨starts, _⟩
      · exact sink other member (starts.trans atEnd)
      · exact apart (starts.trans atEnd)

theorem Proper.addLink (proper : tree.Proper strict number)
    (free : strict → ∀ other ∈ tree.links, other.target ≠ target) :
    (tree.addLink ⟨source, target⟩).Proper strict number := by
  refine ⟨.addLink isSource isTarget sink apart proper.wellFormed, ?_⟩
  intro isStrict
  rw [Single, NodeTree.addLink, map_append, nodup_append]
  refine ⟨proper.single isStrict, by simp, ?_⟩
  intro _ member _ isLast
  obtain ⟨link, old, rfl⟩ := mem_map.1 member
  cases mem_singleton.1 isLast
  exact free isStrict link old

end

end Trees

end NodeTree

def Forest.WellFormed (forest : Forest) : Prop :=
  ∀ (number : Nat) (tree : NodeTree), forest[number]? = some tree → tree.WellFormed number

def Forest.Proper (strict : Prop) (forest : Forest) : Prop :=
  ∀ (number : Nat) (tree : NodeTree), forest[number]? = some tree → tree.Proper strict number

namespace Forest.Proper

theorem modify (proper : forest.Proper strict)
    (kept : ∀ tree, forest[place]? = some tree → (change tree).Proper strict place) :
    Forest.Proper strict (forest.modify place change) := by
  intro number tree found
  rw [getElem?_modify] at found
  by_cases here : place = number
  · subst here
    simp only [if_true] at found
    obtain ⟨old, isThere, rfl⟩ := Option.map_eq_some_iff.1 found
    exact kept old isThere
  · simp only [if_neg here, id_map'] at found
    exact proper number tree found

theorem append (proper : forest.Proper strict) (last : tree.Proper strict forest.length) :
    Forest.Proper strict (forest ++ [tree]) := by
  intro number other found
  rcases Nat.lt_or_ge number forest.length with inside | outside
  · rw [getElem?_append_left inside] at found
    exact proper number other found
  · rw [List.getElem?_append_right outside] at found
    obtain ⟨isLast, rfl⟩ := List.getElem?_eq_some_iff.1 found
    rw [length_singleton] at isLast
    have isEnd : number = forest.length := by omega
    subst isEnd
    simpa using last

end Forest.Proper

theorem NodeTree.proper_of_bare (number : Nat) (links : tree.links = []) :
    tree.Proper strict number := by
  refine ⟨⟨?_, ?_, ?_⟩, ?_⟩
  · rw [links]
    exact nofun
  · rw [links]
    exact nofun
  · intro _ way
    obtain ⟨_, ⟨_, member, _⟩, _⟩ := Relation.TransGen.head'_iff.1 way
    rw [links] at member
    cases member
  · rw [NodeTree.Single, links]
    exact fun _ => nodup_nil

namespace Builder

/-! ## What the builder holds -/

/-- The socket is an output of a node of the tree that the builder is in. -/
def Owns (builder : Builder) (socket : SocketRef) : Prop :=
  builder.current.Owns builder.tree socket ∧ socket.side = .output

/-- All that the items stand for are such outputs. -/
abbrev OwnsAll (builder : Builder) (items : List Item) : Prop :=
  ∀ item ∈ items, ∀ socket ∈ item.sockets, builder.Owns socket

/-- The builder has a socket on its stack, in a variable or as a result. -/
def Holds (builder : Builder) (socket : SocketRef) : Prop :=
  (∃ item ∈ builder.stack, socket ∈ item.sockets) ∨
    (∃ entry ∈ builder.vars, socket ∈ entry.2.sockets) ∨ some socket ∈ builder.outputs

/-- The builder only holds outputs of its tree, and every tree is in order. -/
structure Proper (strict : Prop) (builder : Builder) : Prop where
  anchored : builder.Anchored
  owns : ∀ {socket : SocketRef}, builder.Holds socket → builder.Owns socket
  forest : builder.forest.Proper strict

section Holding

theorem Owns.embeds (owns : builder.Owns socket) (embeds : builder.forest.Embeds after.forest)
    (tree : after.tree = builder.tree) : after.Owns socket := by
  obtain ⟨⟨sameTree, has⟩, side⟩ := owns
  refine ⟨⟨sameTree.trans tree.symm, ?_⟩, side⟩
  rw [current, getD_eq_getElem?_getD] at has
  rw [current, getD_eq_getElem?_getD, tree]
  cases found : builder.forest[builder.tree]? with
  | none =>
    rw [found] at has
    exact absurd has.lt (Nat.not_lt_zero _)
  | some =>
    rw [found] at has
    obtain ⟨_, foundLater, kept⟩ := embeds _ _ found
    rw [foundLater]
    exact kept.has has

section

variable (proper : builder.Proper strict)
include proper

theorem Proper.current : builder.current.Proper strict builder.tree :=
  proper.forest _ _ (forest_getElem?_tree proper.anchored)

theorem Proper.stack : builder.OwnsAll builder.stack :=
  fun item member _ held => proper.owns (.inl ⟨item, member, held⟩)

theorem Proper.vars : ∀ entry ∈ builder.vars, ∀ socket ∈ entry.2.sockets, builder.Owns socket :=
  fun entry member _ held => proper.owns (.inr (.inl ⟨entry, member, held⟩))

theorem Proper.holding {vars : List (String × Item)} {outputs : List (Option SocketRef)}
    (onStack : builder.OwnsAll items)
    (inVars : ∀ entry ∈ vars, ∀ socket ∈ entry.2.sockets, builder.Owns socket)
    (asResult : ∀ socket, some socket ∈ outputs → builder.Owns socket) :
    Proper strict { builder with stack := items, vars := vars, outputs := outputs } := by
  refine ⟨proper.anchored, ?_, proper.forest⟩
  rintro socket (⟨item, member, held⟩ | ⟨entry, member, held⟩ | isResult)
  · exact onStack item member socket held
  · exact inVars entry member socket held
  · exact asResult socket isResult

theorem Proper.stacking (onStack : builder.OwnsAll items) :
    Proper strict { builder with stack := items } :=
  proper.holding onStack proper.vars fun _ isResult => proper.owns (.inr (.inr isResult))

theorem Proper.popped (count : Nat) : (builder.popped count).Proper strict :=
  proper.stacking fun item member => proper.stack item (mem_of_mem_drop member)

theorem Proper.args (count : Nat) : builder.OwnsAll (builder.stack.take count).reverse :=
  fun item member => proper.stack item (mem_of_mem_take (mem_reverse.1 member))

theorem Proper.planting (embeds : builder.forest.Embeds forest)
    (inOrder : forest.Proper strict) : Proper strict { builder with forest := forest } :=
  ⟨Nat.lt_of_lt_of_le proper.anchored embeds.length_le,
    fun holds => (proper.owns holds).embeds embeds rfl, inOrder⟩

end

theorem Owns.put (owns : builder.Owns socket) (anchored : builder.Anchored)
    (keeps : ∀ {node side index}, builder.current.Has node side index → tree.Has node side index) :
    (builder.put tree).Owns socket := by
  obtain ⟨⟨sameTree, has⟩, side⟩ := owns
  refine ⟨⟨sameTree, ?_⟩, side⟩
  rw [current_put anchored]
  exact keeps has

theorem Proper.put (proper : builder.Proper strict)
    (keeps : ∀ {node side index}, builder.current.Has node side index → tree.Has node side index)
    (inOrder : tree.Proper strict builder.tree) : (builder.put tree).Proper strict := by
  refine ⟨?_, fun holds => (proper.owns holds).put proper.anchored keeps, ?_⟩
  · rw [Anchored, Builder.put, length_set]
    exact proper.anchored
  · rw [Builder.put, ← forest_modify builder fun _ => tree]
    exact proper.forest.modify fun _ _ => inOrder

theorem mem_varsOf (member : entry ∈ varsOf names items) : entry.2 ∈ items := by
  have general : ∀ (names : List String) (items : List Item) (vars : List (String × Item)),
      entry ∈ (names.zip items).foldl (fun vars entry => Table.insert entry.1 entry.2 vars) vars →
      entry ∈ vars ∨ entry.2 ∈ items := by
    intro names
    induction names with
    | nil => exact fun items vars => .inl
    | cons name _ ih =>
      rintro (_ | ⟨item, items⟩) vars held
      · exact .inl held
      · rcases ih items (Table.insert name item vars) held with early | late
        · rcases Table.mem_of_mem_insert early with rfl | old
          · exact .inr mem_cons_self
          · exact .inl old
        · exact .inr (mem_cons_of_mem _ late)
  rcases general names items [] member with none | held
  · cases none
  · exact held

theorem mem_resultItems (member : item ∈ resultItems sockets) (held : socket ∈ item.sockets) :
    socket ∈ sockets := by
  match sockets with
  | [] => cases member
  | [_] =>
    cases mem_singleton.1 member
    exact held
  | first :: second :: rest =>
    cases mem_singleton.1 member
    exact mem_reverse.1 held

theorem mem_members (isStruct : item.members? = some members) (isMember : member ∈ members)
    (held : socket ∈ member.sockets) : socket ∈ item.sockets := by
  match item with
  | .struct _ =>
    cases isStruct
    obtain ⟨_, isInside, rfl⟩ := mem_map.1 isMember
    cases mem_singleton.1 held
    exact isInside
  | .value (.vector _) =>
    cases isStruct
    obtain ⟨_, _, rfl⟩ := mem_map.1 isMember
    cases held

end Holding

/-! ## Feeding nodes -/

/-- Links can be made into these inputs of a node: no link leaves it, they have none. -/
structure Open (strict : Prop) (builder : Builder) (node : Nat) (indices : List Nat) : Prop where
  sink : ∀ link ∈ builder.current.links, link.source.node ≠ node
  nodup : strict → indices.Nodup
  free : strict → ∀ link ∈ builder.current.links, link.target.node = node →
    link.target.index ∉ indices

section Feeding

theorem Open.tail (isOpen : builder.Open strict node (index :: indices)) :
    builder.Open strict node indices :=
  ⟨isOpen.sink, fun isStrict => (nodup_cons.1 (isOpen.nodup isStrict)).2,
    fun isStrict link member isHere inside =>
      isOpen.free isStrict link member isHere (mem_cons_of_mem _ inside)⟩

theorem embeds_setInput (tree : NodeTree) (node index : Nat) (item : Item) :
    tree.Embeds (tree.modifyNode node (·.setInput index item)) := by
  refine (NodeTree.Embeds.refl tree).modifyNode fun _ _ => ⟨rfl, fun side => ?_⟩
  cases side with
  | input => exact length_modify ..
  | output => rfl

theorem Fed.owns (fed : Fed builder node index item after) (anchored : builder.Anchored)
    (owns : builder.Owns socket) : after.Owns socket := by
  cases fed with
  | same => exact owns
  | linked =>
    rw [put_modify]
    exact owns.put anchored id
  | stored =>
    rw [put_modify]
    exact owns.put anchored (embeds_setInput _ _ _ _).has

theorem Fed.open (fed : Fed builder node index item after) (anchored : builder.Anchored)
    (isOpen : builder.Open strict node (index :: indices))
    (owned : ∀ socket ∈ item.sockets, builder.Owns socket ∧ socket.node ≠ node) :
    after.Open strict node indices := by
  cases fed with
  | same => exact isOpen.tail
  | @linked source has =>
    rw [put_modify]
    refine ⟨?_, isOpen.tail.nodup, ?_⟩
    · rw [current_put anchored]
      exact forall_mem_append.2 ⟨isOpen.sink, forall_mem_singleton.2 (owned source mem_cons_self).2⟩
    · intro isStrict
      rw [current_put anchored]
      exact forall_mem_append.2 ⟨isOpen.tail.free isStrict,
        forall_mem_singleton.2 fun _ => (nodup_cons.1 (isOpen.nodup isStrict)).1⟩
  | stored =>
    rw [put_modify]
    refine ⟨?_, isOpen.tail.nodup, ?_⟩
    · rw [current_put anchored]
      exact isOpen.sink
    · rw [current_put anchored]
      exact isOpen.tail.free

theorem Fed.proper (fed : Fed builder node index item after) (proper : builder.Proper strict)
    (isOpen : builder.Open strict node (index :: indices))
    (owned : ∀ socket ∈ item.sockets, builder.Owns socket ∧ socket.node ≠ node) :
    after.Proper strict := by
  cases fed with
  | same => exact proper
  | @linked source has =>
    rw [put_modify]
    obtain ⟨isSource, apart⟩ := owned source mem_cons_self
    refine proper.put id (proper.current.addLink isSource ⟨⟨rfl, has⟩, rfl⟩ isOpen.sink apart ?_)
    intro isStrict other member same
    apply isOpen.free isStrict other member
    · rw [same]
    · rw [same]
      exact mem_cons_self
  | stored =>
    rw [put_modify]
    have embeds := embeds_setInput builder.current node index item
    exact proper.put embeds.has (proper.current.embeds embeds rfl)

theorem proper_feedAll (proper : builder.Proper strict) (isOpen : builder.Open strict node indices)
    (owned : ∀ item ∈ items, ∀ socket ∈ item.sockets, builder.Owns socket ∧ socket.node ≠ node) :
    (ending (feedAll node indices items builder)).Proper strict := by
  induction indices generalizing items builder with
  | nil => exact proper
  | cons index _ ih =>
    cases items with
    | nil => exact proper
    | cons item =>
      have fed := fed_feed builder node index item
      have first := owned item mem_cons_self
      rw [feedAll]
      cases done : feed node index item builder with
      | error =>
        rw [done] at fed
        rw [bind_of_error done]
        exact fed.proper proper isOpen first
      | ok =>
        rw [done] at fed
        rw [bind_of_ok done]
        refine ih (fed.proper proper isOpen first) (fed.open proper.anchored isOpen first) ?_
        intro other member socket held
        obtain ⟨owns, apart⟩ := owned other (mem_cons_of_mem _ member) socket held
        exact ⟨fed.owns proper.anchored owns, apart⟩

theorem proper_pushOutputs (proper : builder.Proper strict) (node : Nat) (indices : List Nat) :
    (ending (pushOutputs node indices builder)).Proper strict := by
  rcases pushOutputs_cases builder node indices with ⟨has, done⟩ | ⟨_, failed⟩
  · rw [done]
    refine proper.stacking fun item member socket held => ?_
    rcases mem_append.1 member with new | old
    · rw [outputItems_eq] at new
      obtain ⟨index, isOutput, rfl⟩ := mem_map.1 (mem_resultItems new held)
      exact ⟨⟨rfl, has index isOutput⟩, rfl⟩
    · exact proper.stack item old socket held
  · rw [failed]
    exact proper

/-! ## Adding nodes -/

theorem proper_fedStarted (proper : builder.Proper strict) (key : String) (change : Node → Node)
    (nodup : strict → indices.Nodup) (owned : builder.OwnsAll items) :
    (ending (feedAll builder.current.nodes.length indices items
      (builder.started key change))).Proper strict := by
  have embeds :=
    (NodeTree.Embeds.refl builder.current).addNode (change (builder.current.freshNode key))
  have links := proper.current.wellFormed
  rw [started_eq proper.anchored, ← addNode_eq_grown]
  apply proper_feedAll
  · exact proper.put embeds.has (proper.current.embeds embeds rfl)
  · refine ⟨?_, nodup, ?_⟩
    · rw [current_put proper.anchored]
      intro link member
      exact Nat.ne_of_lt (links.source link member).1.2.lt
    · rw [current_put proper.anchored]
      intro _ link member isHere
      exact absurd (links.target link member).1.2.lt (Nat.not_lt.2 (Nat.le_of_eq isHere.symm))
  · intro item member socket held
    have owns := owned item member socket held
    exact ⟨owns.put proper.anchored embeds.has, Nat.ne_of_lt owns.1.2.lt⟩

theorem proper_remember (proper : builder.Proper strict) (node : Nat) :
    (ending (remember node builder)).Proper strict :=
  ⟨proper.anchored, proper.owns, proper.forest⟩

theorem proper_callBuiltin (proper : builder.Proper strict) (nodup : strict → recipe.inputs.Nodup) :
    (ending (callBuiltin recipe builder)).Proper strict := by
  rw [callBuiltin_eq]
  refine ending_bind (Proper strict) ?_ ?_
  · exact proper_fedStarted (proper.popped recipe.inputs.length) _ _ nodup (proper.args _)
  · intro _ _ _ properFed
    refine ending_bind (Proper strict) (proper_pushOutputs properFed _ _) ?_
    exact fun _ properPushed => proper_remember properPushed _

theorem proper_addGroupNode (proper : builder.Proper strict) (group : Nat)
    (owned : builder.OwnsAll args) : (ending (addGroupNode group args builder)).Proper strict := by
  rw [addGroupNode_eq]
  refine ending_bind (Proper strict) ?_ ?_
  · exact proper_fedStarted proper _ _ (fun _ => nodup_range) owned
  · intro _ _ _ properFed
    refine ending_bind (Proper strict) (proper_remember properFed _) ?_
    exact fun _ properKept => proper_pushOutputs properKept _ _

end Feeding

end Builder

mutual

/-- No node is fed twice at the same input, also not in the bodies of calls. -/
def Operation.Distinct : Operation → Prop
  | .callBuiltin recipe => recipe.inputs.Nodup
  | .callFunction _ body _ => AllDistinct body
  | .callNodeGroup _ _ _ body => AllDistinct body
  | _ => True

def Operation.AllDistinct : List Operation → Prop
  | [] => True
  | operation :: operations => operation.Distinct ∧ AllDistinct operations

end

namespace Builder

section Operations

variable {inner : Builder}

theorem pop_cases (builder : Builder) :
    pop builder = .error .popFromEmpty builder ∨ ∃ item rest, builder.stack = item :: rest ∧
      pop builder = .ok item { builder with stack := rest } := by
  obtain ⟨_, _, stack, _, _, _, _⟩ := builder
  cases stack with
  | nil => exact .inl rfl
  | cons item rest => exact .inr ⟨item, rest, rfl, rfl⟩

section

variable (proper : builder.Proper strict)
include proper

theorem proper_push (owned : ∀ socket ∈ item.sockets, builder.Owns socket) :
    (ending (push item builder)).Proper strict :=
  proper.stacking (forall_mem_cons.2 ⟨owned, proper.stack⟩)

theorem proper_pop {next : Item → Build Unit}
    (each : ∀ {item rest}, (∀ socket ∈ item.sockets, builder.Owns socket) → builder.OwnsAll rest →
      (ending (next item { builder with stack := rest })).Proper strict) :
    (ending ((pop >>= next) builder)).Proper strict := by
  rcases pop_cases builder with failed | ⟨item, rest, stack, done⟩
  · rw [bind_of_error failed]
    exact proper
  · rw [bind_of_ok done]
    have onStack := proper.stack
    rw [stack] at onStack
    obtain ⟨first, others⟩ := forall_mem_cons.1 onStack
    exact each first others

theorem proper_createVar (name : String) : (ending (createVar name builder)).Proper strict := by
  refine proper_pop proper fun {item rest} first others => ?_
  have bound : Proper strict { builder with
      stack := rest, vars := Table.insert name item builder.vars } := by
    refine proper.holding others ?_ fun _ isResult => proper.owns (.inr (.inr isResult))
    intro entry member
    rcases Table.mem_of_mem_insert member with rfl | old
    · exact first
    · exact proper.vars entry old
  split
  · exact bound
  · exact bound
  · exact bound
  · exact proper.stacking others

theorem proper_popStruct {next : List Item → Build Unit}
    (each : ∀ {members rest}, builder.OwnsAll members → builder.OwnsAll rest →
      (ending (next members { builder with stack := rest })).Proper strict) :
    (ending ((popStruct >>= next) builder)).Proper strict := by
  rw [popStruct, bind_assoc]
  refine proper_pop proper fun {item rest} first others => ?_
  cases isStruct : item.members? with
  | none => exact proper.stacking others
  | some =>
    exact each (fun _ member socket held => first socket (mem_members isStruct member held)) others

theorem proper_getOutput (index : Nat) : (ending (getOutput index builder)).Proper strict := by
  refine proper_popStruct proper fun {members rest} inside others => ?_
  cases found : members.reverse[index]? with
  | none => exact proper.stacking others
  | some part =>
    have isMember := mem_reverse.1 (mem_of_getElem? found)
    exact proper.stacking (forall_mem_cons.2 ⟨inside part isMember, others⟩)

theorem proper_splitStruct : (ending (run .splitStruct builder)).Proper strict := by
  refine proper_popStruct proper fun inside others =>
    proper.stacking (forall_mem_append.2 ⟨?_, others⟩)
  exact fun part isMember => inside part (mem_reverse.1 isMember)

theorem proper_setFunctionOut (index : Nat) :
    (ending (setFunctionOut index builder)).Proper strict := by
  refine proper_pop proper fun {item _} first others => ?_
  cases item with
  | socket source =>
    simp only [bind_get]
    by_cases inside : index < builder.outputs.length
    · rw [if_pos inside]
      refine proper.holding others proper.vars ?_
      intro _ member
      rcases mem_or_eq_of_mem_set member with old | new
      · exact proper.owns (.inr (.inr old))
      · cases new
        exact first source mem_cons_self
    · rw [if_neg inside]
      exact proper.stacking others
  | _ => exact proper.stacking others

theorem proper_modifyLast (keeps : ∀ node : Node, node.Lasts (change node)) :
    (ending (modifyLast change builder)).Proper strict := by
  rw [modifyLast, bind_get]
  cases builder.added.getLast? with
  | none => exact proper
  | some last =>
    refine proper.planting (embeds_modifyNode last keeps) (proper.forest.modify ?_)
    intro tree found
    exact (proper.forest _ tree found).embeds
      ((NodeTree.Embeds.refl tree).modifyNode fun _ => keeps) rfl

/-! ## Calls -/

theorem Proper.entered (names : List String) (count : Nat) :
    (builder.entered names count).Proper strict := by
  refine proper.holding nofun ?_ ?_
  · exact fun _ member => proper.args _ _ (mem_varsOf member)
  · intro _ member
    cases (mem_replicate.1 member).2

theorem Proper.left (properInner : inner.Proper strict)
    (embeds : builder.forest.Embeds inner.forest) (tree : inner.tree = builder.tree) (count : Nat)
    (areSet : inner.outputs = sockets.map some) :
    (builder.left inner count sockets).Proper strict := by
  refine properInner.holding ?_ ?_ ?_
  · intro item member socket held
    rcases mem_append.1 member with result | old
    · refine properInner.owns (.inr (.inr ?_))
      rw [areSet]
      exact mem_map_of_mem (mem_resultItems result held)
    · exact (proper.stack item (mem_of_mem_drop old) socket held).embeds embeds tree
  · exact fun entry member socket held => (proper.vars entry member socket held).embeds embeds tree
  · exact fun _ isResult => (proper.owns (.inr (.inr isResult))).embeds embeds tree

end

theorem current_insideGroup (builder : Builder) (name : String) (ins outs : List InterfaceSocket) :
    (builder.insideGroup name ins outs).current = groupTree name builder.current.kind ins outs := by
  simp [insideGroup, current]

theorem Proper.insideGroup (proper : builder.Proper strict) (name : String)
    (ins outs : List InterfaceSocket) : (builder.insideGroup name ins outs).Proper strict := by
  have unlisted : Catalog.shape? "NodeGroupInput" = none := by decide
  refine ⟨?_, ?_, proper.forest.append (NodeTree.proper_of_bare _ rfl)⟩
  · simp [Anchored, Builder.insideGroup]
  rintro _ (⟨_, ⟨⟩, _⟩ | ⟨_, member, held⟩ | isResult)
  · obtain ⟨_, inside, isParameter⟩ := mem_map.1 (mem_varsOf member)
    rw [← isParameter] at held
    cases mem_singleton.1 held
    refine ⟨⟨rfl, ?_⟩, rfl⟩
    rw [current_insideGroup]
    refine ⟨_, rfl, ?_⟩
    simpa [NodeTree.freshNode, NodeTree.socketsOf, unlisted, Node.sockets] using inside
  · cases (mem_replicate.1 isResult).2

theorem Keeps.open (kept : (builder.insideGroup name ins outs).Keeps result)
    (done : result = .ok () inner) (proper : inner.Proper strict) :
    inner.Open strict 1 (List.range' 0 inner.outputs.length) ∧
      ∀ socket, inner.Owns socket → socket.node ≠ 1 := by
  have unlisted : Catalog.shape? "NodeGroupOutput" = none := by decide
  have embeds := kept.embeds_current done
  -- The node had no outputs to begin with, so it still has none.
  have noOutput (index : Nat) : ¬ inner.current.Has 1 .output index := by
    obtain ⟨_, isFirst, none⟩ : ∃ node : Node,
        (groupTree name builder.current.kind ins outs).nodes[1]? = some node ∧
        (node.sockets .output).length = 0 :=
      ⟨_, rfl, by simp [NodeTree.freshNode, NodeTree.socketsOf, unlisted, Node.sockets]⟩
    rintro ⟨_, found, inside⟩
    obtain ⟨_, foundStill, same⟩ := embeds.nodes isFirst
    cases found.symm.trans foundStill
    rw [same.2, none] at inside
    exact Nat.not_lt_zero _ inside
  have apart (socket : SocketRef) (owns : inner.current.Owns inner.tree socket)
      (side : socket.side = .output) : socket.node ≠ 1 := by
    intro isExit
    have has := owns.2
    rw [side, isExit] at has
    exact noOutput _ has
  refine ⟨⟨?_, fun _ => nodup_range', ?_⟩, fun socket owns => apart socket owns.1 owns.2⟩
  · intro link member
    obtain ⟨owns, side⟩ := proper.current.wellFormed.source link member
    exact apart link.source owns side
  · intro _ link member isExit
    rcases embeds.links link member with old | new
    · cases old
    · rw [isExit] at new
      exact absurd new (by decide : ¬ 2 ≤ 1)

end Operations

mutual

theorem proper_run {strict} : ∀ (operation : Operation) {builder},
    (strict → operation.Distinct) → builder.Proper strict →
    (ending (run operation builder)).Proper strict
  | .pushValue value, _, _, proper => by
    exact proper_push proper (by cases value <;> exact nofun)
  | .createVar name, _, _, proper => by
    exact proper_createVar proper name
  | .getVar name, builder, _, proper => by
    rw [run, bind_get]
    cases found : builder.vars.lookup name with
    | none => exact proper
    | some item =>
      exact proper_push proper (proper.vars (name, item) (Catalog.mem_of_lookup found))
  | .getOutput index, _, _, proper => by
    exact proper_getOutput proper index
  | .setOutput index _, builder, _, proper => by
    rw [run, bind_get]
    cases builder.added.getLast? with
    | none => exact proper
    | some last =>
      by_cases inside : index < ((builder.forest.node? last).map (·.outputs.length)).getD 0
      · simp only [if_pos inside]
        exact proper_modifyLast proper (·.lasts_setOutput index _)
      · simp only [if_neg inside]
        exact proper
  | .setFunctionOut index, _, _, proper => by
    exact proper_setFunctionOut proper index
  | .splitStruct, _, _, proper => proper_splitStruct proper
  | .callFunction names body count, builder, distinct, proper => by
    have kept := keeps_runAll body (builder.entered names count)
    have inside := proper_runAll body (by simpa [Distinct] using distinct)
      (proper.entered names count)
    rcases callFunction_cases names body count with ⟨fault, inner, ran, failed⟩ | ⟨inner, ran, ends⟩
    · rw [ran] at inside
      rw [failed]
      exact inside
    · have embeds := kept.embeds
      have tree := (kept.stays ran).1
      rw [ran] at inside embeds
      rcases ends with ⟨_, missing⟩ | ⟨_, areSet, done⟩
      · rw [missing]
        refine .stacking inside fun item member socket held => ?_
        exact (proper.stack item (mem_of_mem_drop member) socket held).embeds embeds tree
      · rw [done]
        exact proper.left inside embeds tree names.length areSet
  | .callNodeGroup name inputs outputs body, builder, distinct, proper => by
    have outer := proper.popped inputs.length
    have args := proper.args inputs.length
    cases known : builder.groups.lookup name with
    | some group =>
      rw [run_callNodeGroup_of_known known]
      exact proper_addGroupNode outer group args
    | none =>
      rw [run_callNodeGroup_of_new known]
      rcases openGroup_cases (builder.popped inputs.length) name inputs outputs with
        ⟨fault, tree, _, links, failed, _⟩ | ⟨ins, outs, _, _, opened⟩
      · rw [bind_of_error failed]
        exact outer.planting (.append _ _) (outer.forest.append (NodeTree.proper_of_bare _ links))
      · rw [bind_of_ok opened]
        have kept := keeps_runAll body ((builder.popped inputs.length).insideGroup name ins outs)
        have inside := proper_runAll body (by simpa [Distinct] using distinct)
          (outer.insideGroup name ins outs)
        refine ending_bind (Proper strict) inside ?_
        intro answer _ ran properInner
        rw [bind_get]
        obtain ⟨isOpen, apart⟩ := kept.open ran properInner
        have embeds := kept.embeds_linkResults ran
        refine ending_bind (Proper strict) ?_ ?_
        · rw [linkResults_eq_feedAll]
          refine proper_feedAll properInner isOpen fun _ member socket held => ?_
          obtain ⟨output, isOutput, rfl⟩ := mem_map.1 member
          cases output with
          | none => cases held
          | some =>
            cases mem_singleton.1 held
            have owns := properInner.owns (.inr (.inr isOutput))
            exact ⟨owns, apart socket owns⟩
        · intro _ linked linking properLinked
          rw [linking] at embeds
          have planted := outer.planting embeds properLinked.forest
          have back : (builder.outsideGroup linked name inputs.length).Proper strict :=
            ⟨planted.anchored, planted.owns, planted.forest⟩
          refine proper_addGroupNode back _ fun item member socket held => ?_
          exact (args item member socket held).embeds embeds rfl
  | .callBuiltin _, _, distinct, proper => by
    exact proper_callBuiltin proper (by simpa [Distinct] using distinct)
  | .renameNode _, _, _, proper => by
    exact proper_modifyLast proper fun _ => ⟨rfl, fun side => by cases side <;> rfl⟩
  | .endOfStatement, _, _, proper => by
    exact proper.stacking nofun

theorem proper_runAll {strict} : ∀ (operations : List Operation) {builder},
    (strict → Operation.AllDistinct operations) → builder.Proper strict →
    (ending (runAll operations builder)).Proper strict
  | [], _, _, proper => proper
  | operation :: operations, _, distinct, proper => by
    refine ending_bind (Proper strict) ?_ ?_
    · exact proper_run operation (fun isStrict => (distinct isStrict).1) proper
    · intro _ _ _ properMiddle
      exact proper_runAll operations (fun isStrict => (distinct isStrict).2) properMiddle

end

/-! ## Sessions -/

/--
The builders that a session comes by when it tries operations one after the other, also in the
bodies of calls.
-/
inductive Visits : List Operation → Builder → Builder → Prop
  | here {operations builder} : Visits operations builder builder
  | next {operation operations builder seen} :
      Visits operations (ending (run operation builder)) seen →
      Visits (operation :: operations) builder seen
  | function {names body count operations builder seen} :
      Visits body (builder.entered names count) seen →
      Visits (.callFunction names body count :: operations) builder seen
  | group {name inputs outputs body operations builder inside seen result} :
      builder.groups.lookup name = none →
      openGroup name inputs outputs (builder.popped inputs.length) = .ok result inside →
      Visits body inside seen →
      Visits (.callNodeGroup name inputs outputs body :: operations) builder seen

section Sessions

theorem Proper.visits (visits : Visits operations builder seen) (proper : builder.Proper strict)
    (distinct : strict → Operation.AllDistinct operations) : seen.Proper strict := by
  induction visits with
  | here => exact proper
  | next _ ih =>
    refine ih (proper_run _ (fun isStrict => (distinct isStrict).1) proper) ?_
    exact fun isStrict => (distinct isStrict).2
  | function _ ih =>
    refine ih (proper.entered _ _) ?_
    exact fun isStrict => by simpa [Distinct] using (distinct isStrict).1
  | @group name inputs outputs _ _ before inside _ _ _ opened _ ih =>
    refine ih ?_ fun isStrict => by simpa [Distinct] using (distinct isStrict).1
    obtain ⟨ins, outs, _, rfl, rfl⟩ := openGroup_eq_ok opened
    exact (proper.popped _).insideGroup name ins outs

theorem proper_new (nonempty : forest ≠ []) (inOrder : forest.Proper strict) :
    (new forest).Proper strict := by
  refine ⟨length_pos_iff.2 nonempty, ?_, inOrder⟩
  rintro _ (⟨_, ⟨⟩, _⟩ | ⟨_, ⟨⟩, _⟩ | none)
  cases none

/--
Whatever operations are tried in a forest of well-formed trees, at every depth of calls: the builder
holds outputs of nodes of the tree that it is in, and all trees stay well formed.  If no node is fed
twice at the same input then no input comes to have two links.
-/
theorem visits_wellFormed {forest : Forest} (nonempty : forest ≠ [])
    (wellFormed : forest.WellFormed) (visits : Visits operations (new forest) seen) :
    (∀ socket, seen.Holds socket → seen.Owns socket) ∧ seen.forest.WellFormed ∧
      ((∀ tree ∈ forest, tree.Single) → Operation.AllDistinct operations →
        ∀ tree ∈ seen.forest, tree.Single) := by
  have loose : seen.Proper False :=
    Proper.visits visits
      (proper_new nonempty fun number tree found => ⟨wellFormed number tree found, nofun⟩) nofun
  refine ⟨fun socket => loose.owns, fun number tree found => (loose.forest number tree found).1, ?_⟩
  intro single distinct tree member
  have inOrder : forest.Proper True := fun number tree found =>
    ⟨wellFormed number tree found, fun _ => single tree (List.mem_of_getElem? found)⟩
  have tight : seen.Proper True :=
    Proper.visits visits (proper_new nonempty inOrder) fun _ => distinct
  rcases List.getElem?_of_mem member with ⟨number, found⟩
  exact (tight.forest number tree found).single trivial

def groupSession : List Operation :=
  [.getVar "x", .pushValue (some (.int 3)),
    .callNodeGroup "twice" [⟨"x", .float, none⟩] [⟨"y", .float, none⟩]
      [.getVar "x", .getVar "x", .callBuiltin ⟨"ShaderNodeMath", [0, 1], [0], []⟩,
        .callFunction ["z"] [.getVar "z", .setFunctionOut 0] 1, .setFunctionOut 0]]

/-- In the function, with two links made, the builder holds the sum in the inner tree. -/
theorem visits_wellFormed_inside :
    ∃ seen, Visits groupSession (new [.empty "T" TreeKind.geometry.label]) seen ∧ seen.tree = 1 ∧
      seen.forest.map (·.links.length) = [0, 2] ∧ seen.Owns ⟨1, 2, .output, 0⟩ ∧
      seen.forest.WellFormed ∧ ∀ tree ∈ seen.forest, tree.Single := by
  have bare (number : Nat) : (NodeTree.empty "T" TreeKind.geometry.label).Proper True number :=
    NodeTree.proper_of_bare number rfl
  have wellFormed : Forest.WellFormed [.empty "T" TreeKind.geometry.label] := by
    rintro (_ | number) tree ⟨⟩
    exact (bare 0).wellFormed
  have single : ∀ tree ∈ [NodeTree.empty "T" TreeKind.geometry.label], tree.Single :=
    List.forall_mem_singleton.2 ((bare 0).single trivial)
  have distinct : Operation.AllDistinct groupSession := by
    simp [groupSession, Operation.AllDistinct, Distinct]
  obtain ⟨seen, visits, tree, links, held⟩ : ∃ seen,
      Visits groupSession (new [.empty "T" TreeKind.geometry.label]) seen ∧
      seen.tree = 1 ∧ seen.forest.map (·.links.length) = [0, 2] ∧
      seen.vars.map (·.2.sockets) = [[⟨1, 2, .output, 0⟩]] :=
    ⟨_, .next (.next (.group rfl (openGroup_of_ok _ "twice" rfl rfl)
      (.next (.next (.next (.function .here)))))), by decide +kernel⟩
  rcases visits_wellFormed (List.cons_ne_nil _ _) wellFormed visits with ⟨owns, inOrder, tight⟩
  refine ⟨seen, visits, tree, links, owns _ (.inr (.inl ?_)), inOrder, tight single distinct⟩
  have isHeld : [⟨1, 2, .output, 0⟩] ∈ seen.vars.map (·.2.sockets) := by
    rw [held]
    exact List.mem_cons_self
  rcases List.mem_map.1 isHeld with ⟨entry, member, same⟩
  exact ⟨entry, member, by rw [same]; exact List.mem_cons_self⟩

end Sessions

end Builder

end NodeFormula
