import NodeFormula.Proofs.Building
import Mathlib.Data.List.Forall2

/-!
# Unfolding sockets

What an output socket computes is read off a forest by following the links into its node
back.  The result is a term: a kind of node with its properties, and for each input nothing, a
constant or another term.  Adding nodes never changes it, because a new node brings only links
into itself.
-/

namespace NodeFormula

open List Option

variable {fed : List (Nat × Item)} {node : Node} {builder : Builder}

variable {item : Item}

mutual

/-- An output of a node, with all that the node depends on. -/
inductive Term
  | output (key : String) (props : List (String × Value)) (inputs : Nat → Feed)
      (held : Option Value) (index : Nat)

/-- What an input of a node is given. -/
inductive Feed
  | untouched
  | constant (value : Value)
  | linked (source : Term)

end

namespace Forest

def sourcesInto (forest : Forest) (target : SocketRef) : List SocketRef :=
  ((forest.linksOf target.tree).filter (·.target = target)).map (·.source)

def defaultAt (forest : Forest) (socket : SocketRef) : Item :=
  (((forest.node? socket.owner).bind fun node =>
    (node.sockets socket.side)[socket.index]?).map (·.default)).getD .absent

end Forest

mutual

/-- The output unfolds to the term. -/
def Term.ShownAt (forest : Forest) : Term → SocketRef → Prop
  | .output key props inputs held index, socket =>
    socket.side = .output ∧ socket.index = index ∧
      (∃ node, forest.node? socket.owner = some node ∧ node.key = key ∧ node.props = props ∧
        node.group = none) ∧
      forest.defaultAt socket = .ofOption held ∧
      ∀ input, (inputs input).FedTo forest ⟨socket.tree, socket.node, .input, input⟩

/-- The input is given what the feed says, and nothing else. -/
def Feed.FedTo (forest : Forest) : Feed → SocketRef → Prop
  | .untouched, socket => forest.sourcesInto socket = [] ∧ forest.defaultAt socket = .absent
  | .constant value, socket =>
    forest.sourcesInto socket = [] ∧ forest.defaultAt socket = .value value
  | .linked source, socket =>
    forest.defaultAt socket = .absent ∧
      ∃ origin, forest.sourcesInto socket = [origin] ∧ source.ShownAt forest origin

end

/-! ## What adding nodes keeps -/

/-- Every node stays as it is, and so does what is linked to its inputs. -/
structure Forest.Keeps (before after : Forest) : Prop where
  node : ∀ {ref : NodeRef} {node : Node}, before.node? ref = some node → after.node? ref = some node
  sources : ∀ {socket : SocketRef} {node : Node}, before.node? socket.owner = some node →
    after.sourcesInto socket = before.sourcesInto socket

namespace Forest.Keeps

theorem refl (forest : Forest) : forest.Keeps forest := by
  constructor
  · intro ref node found
    exact found
  · intro socket node found
    rfl

theorem trans {first second third : Forest} (early : first.Keeps second)
    (late : second.Keeps third) : first.Keeps third := by
  constructor
  · intro ref node found
    exact late.node (early.node found)
  · intro socket node found
    rw [late.sources (early.node found), early.sources found]

theorem defaultAt {before after : Forest} (kept : before.Keeps after)
    (found : before.node? socket.owner = some node) :
    after.defaultAt socket = before.defaultAt socket := by
  rw [Forest.defaultAt, Forest.defaultAt, found, kept.node found]

end Forest.Keeps

mutual

theorem Term.ShownAt.keeps {before after : Forest} (kept : before.Keeps after) :
    ∀ {term : Term} {socket : SocketRef}, term.ShownAt before socket → term.ShownAt after socket
  | .output _ _ _ _ _, socket, ⟨side, index, ⟨node, found, sameKey⟩, held, fed⟩ => by
    refine ⟨side, index, ⟨node, kept.node found, sameKey⟩, ?_, ?_⟩
    · rw [kept.defaultAt found, held]
    · intro input
      exact .keeps kept found (fed input)

theorem Feed.FedTo.keeps {before after : Forest} (kept : before.Keeps after) :
    ∀ {feed : Feed} {socket : SocketRef} {node : Node}, before.node? socket.owner = some node →
      feed.FedTo before socket → feed.FedTo after socket
  | .untouched, socket, node, found, ⟨sources, default⟩ => by
    constructor
    · rw [kept.sources found, sources]
    · rw [kept.defaultAt found, default]
  | .constant _, socket, node, found, ⟨sources, default⟩ => by
    constructor
    · rw [kept.sources found, sources]
    · rw [kept.defaultAt found, default]
  | .linked _, socket, node, found, ⟨default, origin, sources, shown⟩ => by
    refine ⟨?_, origin, ?_, .keeps kept shown⟩
    · rw [kept.defaultAt found, default]
    · rw [kept.sources found, sources]

end

mutual

/-- An output unfolds to one term at most. -/
theorem Term.ShownAt.unique {forest} :
    ∀ {term other : Term} {socket : SocketRef}, term.ShownAt forest socket →
      other.ShownAt forest socket → term = other
  | .output _ _ inputs held _, .output _ _ inputs' held' _, socket,
      ⟨_, index, ⟨node, found, key, props, _⟩, holds, fed⟩,
      ⟨_, index', ⟨node', found', key', props', _⟩, holds', fed'⟩ => by
      obtain rfl : node = node' := Option.some.inj (found.symm.trans found')
      have sameHeld : held = held' := by
        cases held <;> cases held' <;> simp_all [Item.ofOption]
      have sameInputs : inputs = inputs' := by
        funext input
        exact Feed.FedTo.unique (fed input) (fed' input)
      rw [← key, ← key', ← props, ← props', ← index, ← index', sameHeld, sameInputs]

theorem Feed.FedTo.unique {forest} :
    ∀ {feed other : Feed} {socket : SocketRef}, feed.FedTo forest socket →
      other.FedTo forest socket → feed = other
  | .untouched, .untouched, _, _, _ => rfl
  | .untouched, .constant _, _, ⟨_, default⟩, ⟨_, default'⟩ => by
    rw [default] at default'
    cases default'
  | .untouched, .linked _, _, ⟨sources, _⟩, ⟨_, _, sources', _⟩ => by
    rw [sources] at sources'
    cases sources'
  | .constant _, .untouched, _, ⟨_, default⟩, ⟨_, default'⟩ => by
    rw [default] at default'
    cases default'
  | .constant _, .constant _, _, ⟨_, default⟩, ⟨_, default'⟩ => by
    rw [default] at default'
    rw [Item.value.inj default']
  | .constant _, .linked _, _, ⟨sources, _⟩, ⟨_, _, sources', _⟩ => by
    rw [sources] at sources'
    cases sources'
  | .linked _, .untouched, _, ⟨_, _, sources, _⟩, ⟨sources', _⟩ => by
    rw [sources] at sources'
    cases sources'
  | .linked _, .constant _, _, ⟨_, _, sources, _⟩, ⟨sources', _⟩ => by
    rw [sources] at sources'
    cases sources'
  | .linked _, .linked _, _, ⟨_, _, sources, shown⟩, ⟨_, _, sources', shown'⟩ => by
    obtain rfl := singleton_inj.mp (sources.symm.trans sources')
    rw [Term.ShownAt.unique shown shown']

end

/-! ## The inputs of a new node -/

namespace Builder

def storedOver (old : Item) : Item → Item
  | .absent | .value .blank | .socket _ => old
  | item => item

def originsOf : Item → List SocketRef
  | .socket source => [source]
  | _ => []

def inputDefault (node : Node) (index : Nat) : Item :=
  ((node.inputs[index]?).map (·.default)).getD .absent

theorem inputDefault_fed_of_ne (differ : index ≠ other) (item : Item) :
    inputDefault (node.fed index item) other = inputDefault node other := by
  unfold Node.fed inputDefault
  split <;> simp [Node.setInput, differ]

theorem inputDefault_fed (inRange : index < node.inputs.length) (item : Item) :
    inputDefault (node.fed index item) index = storedOver (inputDefault node index) item := by
  unfold Node.fed storedOver
  split <;> simp [inputDefault, Node.setInput, inRange]

theorem lookup_eq_none_of_not_mem (missing : index ∉ fed.map (·.1)) : fed.lookup index = none := by
  rw [lookup_eq_none_iff]
  intro entry member
  have differ : index ≠ entry.1 := by
    rintro rfl
    exact missing (mem_map_of_mem member)
  exact bne_iff_ne.mpr differ

theorem inputDefault_fedAll (distinct : (fed.map (·.1)).Nodup)
    (inRange : ∀ entry ∈ fed, entry.1 < node.inputs.length) (index : Nat) :
    inputDefault (fedAll node fed) index =
      ((fed.lookup index).map (storedOver (inputDefault node index))).getD
        (inputDefault node index) := by
  induction fed generalizing node with
  | nil => rfl
  | cons entry rest ih =>
    obtain ⟨first, item⟩ := entry
    rw [map_cons, nodup_cons] at distinct
    have firstInRange : first < node.inputs.length := inRange _ mem_cons_self
    have restInRange : ∀ entry ∈ rest, entry.1 < (node.fed first item).inputs.length := by
      intro entry member
      rw [length_inputs_fed]
      exact inRange entry (mem_cons_of_mem _ member)
    rw [fedAll, ih distinct.2 restInRange]
    by_cases same : first = index
    · subst same
      rw [lookup_eq_none_of_not_mem distinct.1, inputDefault_fed firstInRange]
      simp
    · have differs : (index == first) = false := beq_false_of_ne (.symm same)
      rw [inputDefault_fed_of_ne same, lookup_cons, differs]

theorem origins_linksInto (owner : NodeRef) (distinct : (fed.map (·.1)).Nodup) (index : Nat) :
    ((linksInto owner fed).filter (·.target = ⟨owner.tree, owner.index, .input, index⟩)).map
        (·.source) = ((fed.lookup index).map originsOf).getD [] := by
  induction fed with
  | nil => rfl
  | cons entry rest ih =>
    obtain ⟨first, item⟩ := entry
    rw [map_cons, nodup_cons] at distinct
    have split : linksInto owner ((first, item) :: rest) =
        item.linksTo ⟨owner.tree, owner.index, .input, first⟩ ++ linksInto owner rest := by
      simp [linksInto]
    rw [split, filter_append, map_append, ih distinct.2]
    by_cases same : first = index
    · subst same
      rw [lookup_eq_none_of_not_mem distinct.1]
      cases item <;> simp [Item.linksTo, originsOf]
    · have differs : (index == first) = false := beq_false_of_ne (.symm same)
      rw [lookup_cons, differs]
      cases item <;> simp [Item.linksTo, same]

theorem foldl_setProp_props (distinct : ((node.props ++ props).map (·.1)).Nodup) :
    (props.foldl (fun made prop => made.setProp prop.1 prop.2) node).props =
      node.props ++ props := by
  induction props generalizing node with
  | nil => simp
  | cons prop props ih =>
    have missing : prop.1 ∉ node.props.map (·.1) := by
      intro member
      rw [map_append] at distinct
      exact (nodup_append.mp distinct).2.2 _ member _ mem_cons_self rfl
    have set : (node.setProp prop.1 prop.2).props = node.props ++ [prop] :=
      Table.insert_of_not_mem prop.2 missing
    rw [foldl_cons, ih]
    · rw [set, append_assoc, singleton_append]
    · rw [set, append_assoc]
      exact distinct

theorem foldl_setProp_frame (props : List (String × Value)) (node : Node) :
    (props.foldl (fun made prop => made.setProp prop.1 prop.2) node).key = node.key ∧
      (props.foldl (fun made prop => made.setProp prop.1 prop.2) node).group = node.group := by
  induction props generalizing node with
  | nil => exact ⟨rfl, rfl⟩
  | cons prop props ih => exact ih _

theorem fedAll_frame (node : Node) (fed : List (Nat × Item)) :
    (fedAll node fed).key = node.key ∧ (fedAll node fed).props = node.props ∧
      (fedAll node fed).group = node.group := by
  induction fed generalizing node with
  | nil => exact ⟨rfl, rfl, rfl⟩
  | cons entry rest ih =>
    have here : (node.fed entry.1 entry.2).key = node.key ∧
        (node.fed entry.1 entry.2).props = node.props ∧
        (node.fed entry.1 entry.2).group = node.group := by
      unfold Node.fed
      split <;> exact ⟨rfl, rfl, rfl⟩
    obtain ⟨key, props, group⟩ := ih (node.fed entry.1 entry.2)
    exact ⟨key.trans here.1, props.trans here.2.1, group.trans here.2.2⟩

theorem default_freshNode (tree : NodeTree) (key : String) (side : Side) :
    ∀ socket ∈ (tree.freshNode key).sockets side, socket.default = .absent := by
  have sockets : (∀ socket ∈ (tree.socketsOf key).1, socket.default = .absent) ∧
      ∀ socket ∈ (tree.socketsOf key).2, socket.default = .absent := by
    unfold NodeTree.socketsOf
    split
    · constructor
      · intro socket member
        obtain ⟨input, _, rfl⟩ := mem_map.mp member
        rfl
      · intro socket member
        obtain ⟨output, _, rfl⟩ := mem_map.mp member
        rfl
    · split_ifs <;> simp [InterfaceSocket.toSocket]
  cases side with
  | input => exact sockets.1
  | output => exact sockets.2

end Builder

/-! ## A new node shows its recipe -/

/-- What the item on the stack gives to an input. -/
def Feed.CarriedBy (forest : Forest) : Feed → Item → Prop
  | .untouched, item => item.isIdle = true
  | .constant value, item => item = .value value ∧ item.isIdle = false
  | .linked source, item => ∃ origin, item = .socket origin ∧ source.ShownAt forest origin

/-- What an input of the node of a recipe is given: the argument in its place. -/
def NodeRecipe.feedAt (recipe : NodeRecipe) (feeds : List Feed) (input : Nat) : Feed :=
  (feeds[recipe.inputs.idxOf input]?).getD .untouched

theorem Item.eq_of_isIdle (idle : item.isIdle = true) : item = .absent ∨ item = .value .blank := by
  cases item with
  | absent => exact .inl rfl
  | value value =>
    cases value with
    | blank => exact .inr rfl
    | _ => cases idle
  | socket source => cases idle
  | struct sockets => cases idle

theorem Feed.CarriedBy.keeps {before after : Forest} (kept : before.Keeps after) {feed : Feed}
    (carried : feed.CarriedBy before item) : feed.CarriedBy after item := by
  cases feed with
  | untouched => exact carried
  | constant value => exact carried
  | linked source =>
    obtain ⟨origin, isSocket, shown⟩ := carried
    exact ⟨origin, isSocket, shown.keeps kept⟩

namespace Builder

/-- The links of the tree lead to nodes of the tree. -/
def Tidy (builder : Builder) : Prop :=
  ∀ link ∈ builder.current.links, link.target.node < builder.current.nodes.length

theorem target_of_mem_linksInto (member : link ∈ linksInto owner fed) :
    link.target.node = owner.index := by
  obtain ⟨entry, _, linked⟩ := mem_flatMap.mp member
  cases item : entry.2 with
  | socket source =>
    rw [item, Item.linksTo, mem_singleton] at linked
    rw [linked]
  | _ =>
    rw [item] at linked
    cases linked

/-! ### A node with its links -/

section Growing

theorem tidy_grown (anchored : builder.Anchored) (tidy : builder.Tidy) (node : Node)
    (fed : List (Nat × Item)) :
    (builder.put (builder.current.grown node (linksInto builder.nextNode fed))).Tidy := by
  intro link member
  rw [current_put anchored] at member ⊢
  rw [NodeTree.grown] at member ⊢
  simp only [mem_append, length_append] at member ⊢
  rcases member with old | new
  · exact Nat.lt_succ_of_lt (tidy link old)
  · rw [target_of_mem_linksInto new]
    exact Nat.lt_succ_self _

theorem keeps_grown (anchored : builder.Anchored) (added : Node) (fed : List (Nat × Item)) :
    builder.forest.Keeps
      (builder.put (builder.current.grown added (linksInto builder.nextNode fed))).forest := by
  have below : builder.tree < builder.forest.length := anchored
  constructor
  · intro ref node found
    rw [Forest.node?] at found ⊢
    simp only [put]
    by_cases here : builder.tree = ref.tree
    · rw [← here, forest_getElem?_tree anchored, bind_some] at found
      have inTree : ref.index < builder.current.nodes.length :=
        (List.getElem?_eq_some_iff.mp found).1
      rw [← here]
      simp [below, NodeTree.grown, List.getElem?_append_left inTree, found]
    · rw [getElem?_set_ne here]
      exact found
  · intro socket node found
    rw [Forest.sourcesInto, Forest.sourcesInto, Forest.linksOf, Forest.linksOf]
    simp only [put]
    by_cases here : builder.tree = socket.tree
    · rw [Forest.node?, SocketRef.owner, ← here, forest_getElem?_tree anchored] at found
      have inTree : socket.node < builder.current.nodes.length :=
        (List.getElem?_eq_some_iff.mp found).1
      have elsewhere : (linksInto builder.nextNode fed).filter (·.target = socket) = [] := by
        rw [filter_eq_nil_iff]
        intro link member same
        have target : link.target.node = builder.current.nodes.length :=
          target_of_mem_linksInto member
        rw [of_decide_eq_true same] at target
        omega
      rw [← here, forest_getElem?_tree anchored, getElem?_set_self below]
      simp only [map_some, getD_some, NodeTree.grown, filter_append,
        elsewhere, append_nil]
    · rw [getElem?_set_ne here]

theorem sourcesInto_grown (anchored : builder.Anchored) (tidy : builder.Tidy) (added : Node)
    (distinct : (fed.map (·.1)).Nodup) (input : Nat) : (builder.put (builder.current.grown added
        (linksInto builder.nextNode fed))).forest.sourcesInto
        ⟨builder.tree, builder.current.nodes.length, .input, input⟩ =
      ((fed.lookup input).map originsOf).getD [] := by
  have below : builder.tree < builder.forest.length := anchored
  have old : builder.current.links.filter
      (·.target = ⟨builder.tree, builder.current.nodes.length, .input, input⟩) = [] := by
    rw [filter_eq_nil_iff]
    intro link member same
    have target := tidy link member
    rw [of_decide_eq_true same] at target
    exact Nat.lt_irrefl _ target
  rw [Forest.sourcesInto, Forest.linksOf]
  simp only [put, getElem?_set_self below, map_some, getD_some,
    NodeTree.grown, filter_append, old, nil_append]
  exact origins_linksInto builder.nextNode distinct input

end Growing

section Installing

variable {recipe : NodeRecipe}

theorem anchored_installed (anchored : builder.Anchored) :
    (builder.installed recipe finish).Anchored := by
  have below : builder.tree < builder.forest.length := anchored
  simpa [Anchored, installed, put] using below

theorem tidy_installed (anchored : builder.Anchored) (tidy : builder.Tidy) :
    (builder.installed recipe finish).Tidy :=
  tidy_grown anchored tidy _ _

theorem keeps_installed (anchored : builder.Anchored) :
    builder.forest.Keeps (builder.installed recipe finish).forest :=
  keeps_grown anchored _ _

theorem lookup_zip {indices : List Nat} {items : List Item}
    (sameLength : indices.length = items.length) (index : Nat) :
    (indices.zip items).lookup index = items[indices.idxOf index]? := by
  induction indices generalizing items with
  | nil =>
    rw [length_nil, eq_comm, length_eq_zero_iff] at sameLength
    rw [sameLength]
    rfl
  | cons first indices ih =>
    cases items with
    | nil => cases sameLength
    | cons item items =>
      rw [zip_cons_cons, lookup_cons]
      by_cases same : first = index
      · subst same
        simp
      · have differs : (index == first) = false := beq_false_of_ne (.symm same)
        rw [differs, ih (Nat.succ.inj sameLength), idxOf_cons_ne _ same]
        rfl

theorem length_arguments (enough : recipe.inputs.length ≤ builder.stack.length) :
    recipe.inputs.length = (builder.stack.take recipe.inputs.length).reverse.length := by
  rw [length_reverse, length_take, Nat.min_eq_left enough]

theorem nodup_arguments (wellFormed : recipe.WellFormed)
    (enough : recipe.inputs.length ≤ builder.stack.length) :
    ((builder.arguments recipe).map (·.1)).Nodup := by
  rw [arguments, map_fst_zip (Nat.le_of_eq (length_arguments enough))]
  exact wellFormed.inputs_nodup

theorem socketDefault_bare (tree : NodeTree) (side : Side) (index : Nat) :
    ((((bare recipe tree).sockets side)[index]?).map (·.default)).getD .absent = .absent := by
  rw [bare, foldl_setProp_sockets]
  cases found : ((tree.freshNode recipe.key).sockets side)[index]? with
  | none => rfl
  | some socket => exact default_freshNode tree recipe.key side socket (mem_of_getElem? found)

theorem sourcesInto_installed (wellFormed : recipe.WellFormed) (anchored : builder.Anchored)
    (tidy : builder.Tidy) (enough : recipe.inputs.length ≤ builder.stack.length)
    (finish : Node → Node) (input : Nat) : (builder.installed recipe finish).forest.sourcesInto
        ⟨builder.tree, builder.current.nodes.length, .input, input⟩ =
      (((builder.arguments recipe).lookup input).map originsOf).getD [] :=
  sourcesInto_grown anchored tidy _ (nodup_arguments wellFormed enough) input

/-- What is done with a node afterwards leaves its kind and its inputs alone. -/
structure Cosmetic (finish : Node → Node) : Prop where
  key : ∀ node, (finish node).key = node.key
  props : ∀ node, (finish node).props = node.props
  group : ∀ node, (finish node).group = node.group
  inputs : ∀ node, (finish node).inputs = node.inputs

theorem finish_cosmetic (name : String) (node : InputNode) : Cosmetic (node.finish name) := by
  constructor <;>
  · intro made
    unfold InputNode.finish
    cases node.held.filter (·.isNonzero) <;> rfl

theorem defaultAt_input_installed (wellFormed : recipe.WellFormed) (anchored : builder.Anchored)
    (enough : recipe.inputs.length ≤ builder.stack.length)
    (cosmetic : Cosmetic finish) (input : Nat) : (builder.installed recipe finish).forest.defaultAt
        ⟨builder.tree, builder.current.nodes.length, .input, input⟩ =
      (((builder.arguments recipe).lookup input).map (storedOver .absent)).getD .absent := by
  have inRange : ∀ entry ∈ builder.arguments recipe,
      entry.1 < (bare recipe builder.current).inputs.length := by
    intro entry member
    rw [(length_sockets_bare wellFormed _).1]
    exact wellFormed.inputs_lt _ (of_mem_zip member).1
  have holds : (builder.installed recipe finish).forest.defaultAt
      ⟨builder.tree, builder.current.nodes.length, .input, input⟩ =
      inputDefault (fedAll (bare recipe builder.current) (builder.arguments recipe)) input := by
    have found := node?_nextNode_installed anchored recipe finish
    rw [nextNode] at found
    rw [Forest.defaultAt, SocketRef.owner, found, inputDefault, ← cosmetic.inputs]
    rfl
  rw [holds, inputDefault_fedAll (nodup_arguments wellFormed enough) inRange,
    show inputDefault (bare recipe builder.current) input = .absent from
      socketDefault_bare builder.current .input input]

theorem exists_of_forall₂ {α β : Type} {related : α → β → Prop} {left : List α} {right : List β}
    (all : List.Forall₂ related left right) {place : Nat} {first : α}
    (found : left[place]? = some first) :
    ∃ second, right[place]? = some second ∧ related first second := by
  induction all generalizing place with
  | nil => cases found
  | cons head tail ih =>
    cases place with
    | zero =>
      obtain rfl := Option.some.inj found
      exact ⟨_, rfl, head⟩
    | succ place => exact ih found

theorem fedTo_installed (wellFormed : recipe.WellFormed) (anchored : builder.Anchored)
    (tidy : builder.Tidy) (enough : recipe.inputs.length ≤ builder.stack.length)
    (cosmetic : Cosmetic finish) (carried : List.Forall₂ (Feed.CarriedBy builder.forest) feeds
      (builder.stack.take recipe.inputs.length).reverse) (input : Nat) :
    (recipe.feedAt feeds input).FedTo (builder.installed recipe finish).forest
      ⟨builder.tree, builder.current.nodes.length, .input, input⟩ := by
  have sources := sourcesInto_installed wellFormed anchored tidy enough finish input
  have default := defaultAt_input_installed wellFormed anchored enough cosmetic input
  rw [arguments, lookup_zip (length_arguments enough)] at sources default
  rw [NodeRecipe.feedAt]
  generalize recipe.inputs.idxOf input = place at sources default
  cases given : feeds[place]? with
  | none =>
    have missing : (builder.stack.take recipe.inputs.length).reverse[place]? = none := by
      rw [getElem?_eq_none_iff] at given ⊢
      rw [← carried.length_eq]
      exact given
    rw [missing] at sources default
    exact ⟨sources, default⟩
  | some feed =>
    obtain ⟨item, found, carries⟩ : ∃ item,
        (builder.stack.take recipe.inputs.length).reverse[place]? = some item ∧
          feed.CarriedBy builder.forest item :=
      exists_of_forall₂ carried given
    rw [found] at sources default
    cases feed with
    | untouched =>
      obtain rfl | rfl := Item.eq_of_isIdle carries
      · exact ⟨sources, default⟩
      · exact ⟨sources, default⟩
    | constant value =>
      obtain ⟨rfl, busy⟩ := carries
      cases value with
      | blank => cases busy
      | _ => exact ⟨sources, default⟩
    | linked source =>
      obtain ⟨origin, rfl, shown⟩ := carries
      exact ⟨default, origin, sources, shown.keeps (keeps_installed anchored)⟩

theorem frame_installed (wellFormed : recipe.WellFormed) (cosmetic : Cosmetic finish)
    (builder : Builder) :
    (finish (fedAll (bare recipe builder.current) (builder.arguments recipe))).key = recipe.key ∧
      (finish (fedAll (bare recipe builder.current) (builder.arguments recipe))).props =
        recipe.props ∧
      (finish (fedAll (bare recipe builder.current) (builder.arguments recipe))).group = none := by
  obtain ⟨fedKey, fedProps, fedGroup⟩ :=
    fedAll_frame (bare recipe builder.current) (builder.arguments recipe)
  obtain ⟨bareKey, bareGroup⟩ :=
    foldl_setProp_frame recipe.props (builder.current.freshNode recipe.key)
  have bareProps : (bare recipe builder.current).props = recipe.props :=
    foldl_setProp_props wellFormed.props_nodup
  refine ⟨?_, ?_, ?_⟩
  · rw [cosmetic.key, fedKey]
    exact bareKey
  · rw [cosmetic.props, fedProps, bareProps]
  · rw [cosmetic.group, fedGroup]
    exact bareGroup

/-- An output of the new node unfolds to the recipe applied to what the arguments carry. -/
theorem shownAt_installed (wellFormed : recipe.WellFormed) (anchored : builder.Anchored)
    (tidy : builder.Tidy) (enough : recipe.inputs.length ≤ builder.stack.length)
    (cosmetic : Cosmetic finish) (carried : List.Forall₂ (Feed.CarriedBy builder.forest) feeds
      (builder.stack.take recipe.inputs.length).reverse)
    (holds : (((finish (fedAll (bare recipe builder.current)
      (builder.arguments recipe))).outputs[index]?).map (·.default)).getD .absent =
        .ofOption held) :
    (Term.output recipe.key recipe.props (recipe.feedAt feeds) held index).ShownAt
      (builder.installed recipe finish).forest
      ⟨builder.tree, builder.current.nodes.length, .output, index⟩ := by
  have found := node?_nextNode_installed anchored recipe finish
  refine ⟨rfl, rfl, ⟨_, found, frame_installed wellFormed cosmetic builder⟩, ?_, ?_⟩
  · rw [nextNode] at found
    rw [Forest.defaultAt, SocketRef.owner, found]
    exact holds
  · exact fedTo_installed wellFormed anchored tidy enough cosmetic carried

end Installing

end Builder

end NodeFormula
