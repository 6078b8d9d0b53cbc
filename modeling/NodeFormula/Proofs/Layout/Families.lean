import Mathlib.Data.Finset.Card
import Mathlib.Logic.Relation
import NodeFormula.Proofs.Layout.Steps

/-!
# Families

While a tree is built from acyclic links, each entry but the first is a child of a node that it
feeds, and children stand in the order of the sockets that they feed.  The entries that still have
to be built are open: they have no children yet, and what feeds them may be missing.
-/

namespace NodeFormula.Layout

open List Relation Kin

variable {roots : Roots} {links : List Link} {node : NodeRef} {forest : Forest}
  {children : List Nat}

/-! ## The graph -/

def Feeds (links : List Link) (source target : NodeRef) : Prop :=
  ∃ link ∈ links, link.source.owner = source ∧ link.target.owner = target

/-- The links join nodes of the forest without a cycle, at inputs that exist. -/
structure Drawn (forest : Forest) (links : List Link) : Prop where
  acyclic : ∀ node, ¬ TransGen (Feeds links) node node
  source : ∀ link ∈ links, ∃ node, forest.node? link.source.owner = some node
  target : ∀ link ∈ links, ∃ node, forest.node? link.target.owner = some node ∧
    link.target.index < node.inputs.length

open Classical in
noncomputable def rank (links : List Link) (nodes : List NodeRef) (node : NodeRef) : Nat :=
  (nodes.toFinset.filter fun other => TransGen (Feeds links) other node).card

section Ranks

variable {nodes : List NodeRef}

theorem listed_of_feeds (listed : ∀ link ∈ links, link.source.owner ∈ nodes)
    (feeds : Feeds links source target) : source ∈ nodes := by
  obtain ⟨link, isLink, rfl, _⟩ := feeds
  exact listed link isLink

theorem rank_lt (acyclic : ∀ node, ¬ TransGen (Feeds links) node node)
    (feeds : Feeds links source target) (listed : source ∈ nodes) :
    rank links nodes source < rank links nodes target := by
  classical
  apply Finset.card_lt_card
  rw [Finset.ssubset_iff_of_subset]
  · refine ⟨source, ?_, ?_⟩
    · simpa [listed] using TransGen.single feeds
    · simp [acyclic source]
  · intro other member
    rw [Finset.mem_filter] at member ⊢
    exact ⟨member.1, member.2.tail feeds⟩

theorem rank_le (links : List Link) (nodes : List NodeRef) (node : NodeRef) :
    rank links nodes node ≤ nodes.length := by
  classical
  exact (Finset.card_filter_le _ _).trans (toFinset_card_le nodes)

theorem rank_lt_length (acyclic : ∀ node, ¬ TransGen (Feeds links) node node)
    (listed : node ∈ nodes) : rank links nodes node < nodes.length := by
  classical
  refine Nat.lt_of_lt_of_le (Finset.card_lt_card ?_) (toFinset_card_le nodes)
  rw [Finset.filter_ssubset]
  exact ⟨node, by simpa using listed, acyclic node⟩

end Ranks

/-! ## Families -/

def Roots.nodes : Roots → List NodeRef
  | .single node => [node]
  | .several nodes => nodes

def Roots.node? : Roots → Option NodeRef
  | .single node => some node
  | .several _ => none

theorem Roots.nodes_eq (alone : roots.node? = some node) : roots.nodes = [node] := by
  cases roots with
  | single root =>
    cases alone
    rfl
  | several _ => cases alone

def nodeOf? (table : List Kin) (index : Nat) : Option NodeRef := table[index]?.bind (·.node)

/-- The children feed a node, in the order of the sockets at which their links end. -/
def Ordered (links : List Link) (table : List Kin) (node : NodeRef) (children : List Nat) : Prop :=
  ∃ fed : List (Nat × Link), fed.map (·.1) = children ∧
    (∀ pair ∈ fed, pair.2 ∈ links ∧ pair.2.target.owner = node ∧
      nodeOf? table pair.1 = some pair.2.source.owner) ∧
    fed.Pairwise fun first second => first.2.target.index ≤ second.2.target.index

def sizeIn (forest : Forest) : Option NodeRef → Int × Int
  | some node => ((kinOf forest node).width, (kinOf forest node).height)
  | none => (LayoutEntry.ofRoots.width, LayoutEntry.ofRoots.height)

/-- What holds of the entries while the tree is built, the first of which is the root. -/
structure Family (forest : Forest) (links : List Link) (roots : Roots) (table : List Kin)
    (loose opened : List Nat) : Prop where
  woven : Kin.Woven table loose
  nodup : opened.Nodup
  inside : ∀ index ∈ opened, index < table.length
  top : ∃ kin, table[0]? = some kin ∧ kin.parent = none ∧ kin.node = roots.node?
  fixed : 0 ∉ loose
  named : ∀ {index : Nat} {kin : Kin}, table[index]? = some kin → index ≠ 0 →
    ∃ node, kin.node = some node
  below : ∀ {index : Nat} {kin : Kin}, table[index]? = some kin → index ≠ 0 → index ∉ loose →
    ∃ parent, kin.parent = some parent
  distinct : roots.nodes.Nodup → ∀ {first second : Nat} {node : NodeRef},
    nodeOf? table first = some node → nodeOf? table second = some node → first = second
  reaches : ∀ {index : Nat} {node : NodeRef}, nodeOf? table index = some node →
    ∃ root ∈ roots.nodes, ReflTransGen (Feeds links) node root
  ordered : ∀ {index : Nat} {kin : Kin} {node : NodeRef}, table[index]? = some kin →
    kin.node = some node → Ordered links table node kin.children
  closed : ∀ {index : Nat} {node : NodeRef}, nodeOf? table index = some node → index ∉ opened →
    ∀ link ∈ links, link.target.owner = node → ∃ other, nodeOf? table other = some link.source.owner
  bare : ∀ {index : Nat} {kin : Kin}, table[index]? = some kin → index ∈ opened → kin.children = []
  sized : ∀ {index : Nat} {kin : Kin}, table[index]? = some kin →
    (kin.width, kin.height) = sizeIn forest kin.node

theorem Family.congr (family : Family forest links roots table loose opened)
    (sameLoose : ∀ index, index ∈ otherLoose ↔ index ∈ loose) (nodup : otherOpened.Nodup)
    (sameOpened : ∀ index, index ∈ otherOpened ↔ index ∈ opened) :
    Family forest links roots table otherLoose otherOpened :=
  { family with
    woven := family.woven.congr sameLoose
    nodup := nodup
    inside := fun index member => family.inside index ((sameOpened index).1 member)
    fixed := fun member => family.fixed ((sameLoose 0).1 member)
    below := fun found notRoot bound =>
      family.below found notRoot fun member => bound ((sameLoose _).2 member)
    closed := fun isNode notOpen =>
      family.closed isNode fun member => notOpen ((sameOpened _).2 member)
    bare := fun found isOpen => family.bare found ((sameOpened _).1 isOpen) }

section Heights

theorem nodeOf?_eq {kin : Kin} (found : table[index]? = some kin) :
    nodeOf? table index = kin.node := by
  rw [nodeOf?, found, Option.bind_some]

theorem exists_of_nodeOf? (found : nodeOf? table index = some node) :
    ∃ kin, table[index]? = some kin ∧ kin.node = some node :=
  Option.bind_eq_some_iff.1 found

theorem Ordered.feeds (ordered : Ordered links table node children) (member : index ∈ children)
    (isSource : nodeOf? table index = some source) : Feeds links source node := by
  obtain ⟨_, rfl, each, _⟩ := ordered
  obtain ⟨pair, isPair, rfl⟩ := mem_map.1 member
  obtain ⟨isLink, isTarget, isNode⟩ := each pair isPair
  exact ⟨pair.2, isLink, Option.some.inj (isNode.symm.trans isSource), isTarget⟩

theorem Family.exists_height (family : Family forest links roots table loose opened)
    (acyclic : ∀ node, ¬ TransGen (Feeds links) node node) :
    ∃ height, Falls height table ∧ ∀ index, height index ≤ table.length := by
  let nodes := table.filterMap (·.node)
  have listed {index : Nat} {node : NodeRef} (isNode : nodeOf? table index = some node) :
      node ∈ nodes := by
    obtain ⟨kin, found, named⟩ := exists_of_nodeOf? isNode
    exact mem_filterMap.2 ⟨kin, mem_of_getElem? found, named⟩
  have short : nodes.length ≤ table.length := length_filterMap_le ..
  let height (index : Nat) : Nat := match nodeOf? table index with
    | some node => rank links nodes node
    | none => table.length
  refine ⟨height, ?_, ?_⟩
  · intro place kin found child member
    obtain ⟨_, isBelow, isChild⟩ := (family.woven.row found).mem member
    have notRoot : child ≠ 0 := by
      rintro rfl
      obtain ⟨top, isTop, noParent, _⟩ := family.top
      cases isTop.symm.trans isBelow
      rw [noParent] at isChild
      cases isChild
    obtain ⟨source, isSource⟩ := family.named isBelow notRoot
    have isNode : nodeOf? table child = some source := (nodeOf?_eq isBelow).trans isSource
    have here := nodeOf?_eq found
    simp only [height, isNode, here]
    cases target : kin.node with
    | some node =>
      exact rank_lt acyclic ((family.ordered found target).feeds member isNode) (listed isNode)
    | none => exact Nat.lt_of_lt_of_le (rank_lt_length acyclic (listed isNode)) short
  · intro index
    simp only [height]
    cases nodeOf? table index with
    | some node => exact (rank_le links nodes node).trans short
    | none => exact Nat.le_refl _

theorem Family.root_ne (family : Family forest links roots table loose opened)
    (acyclic : ∀ node, ¬ TransGen (Feeds links) node node)
    (isNode : nodeOf? table index = some node) (feeds : Feeds links source node) :
    nodeOf? table 0 ≠ some source := by
  intro isRoot
  obtain ⟨_, isTop, _, alone⟩ := family.top
  obtain ⟨_, isListed, way⟩ := family.reaches isNode
  rw [nodeOf?_eq isTop, alone] at isRoot
  rw [Roots.nodes_eq isRoot] at isListed
  cases mem_singleton.1 isListed
  exact acyclic source (.head' feeds way)

end Heights

/-! ## Moving entries -/

section Moving

variable {parent : Nat}

theorem nodeOf?_reparented (table : List Kin) (index parent : Nat) (entry : Kin) (place : Nat) :
    nodeOf? (reparented table index parent entry) place = nodeOf? table place := by
  rw [nodeOf?, nodeOf?, reparented, getElem?_mapIdx]
  cases table[place]? <;> rfl

theorem Ordered.congr (ordered : Ordered links table node children)
    (same : ∀ {index node}, nodeOf? table index = some node → nodeOf? later index = some node) :
    Ordered links later node children := by
  obtain ⟨fed, isFed, each, sorted⟩ := ordered
  refine ⟨fed, isFed, fun pair member => ?_, sorted⟩
  obtain ⟨isLink, isTarget, isNode⟩ := each pair member
  exact ⟨isLink, isTarget, same isNode⟩

theorem Ordered.filter (ordered : Ordered links table node children) (keep : Nat → Bool) :
    Ordered links table node (children.filter keep) := by
  obtain ⟨fed, rfl, each, sorted⟩ := ordered
  refine ⟨fed.filter (keep ·.1), ?_, ?_, sorted.filter _⟩
  · rw [filter_map]
    rfl
  · exact fun pair member => each pair (mem_filter.1 member).1

theorem Family.reparented (family : Family forest links roots table loose opened)
    (found : table[index]? = some entry) (notRoot : index ≠ 0) (bound : index ∉ loose)
    (parent : Nat) :
    Family forest links roots (Kin.reparented table index parent entry)
      (index :: loose) opened := by
  obtain ⟨_, isChild⟩ := family.below found notRoot bound
  have same := nodeOf?_reparented table index parent entry
  refine ⟨family.woven.reparented found isChild bound parent, family.nodup, ?_, ?_, ?_, ?_, ?_, ?_,
    ?_, ?_, ?_, ?_, ?_⟩
  · simpa [Kin.reparented] using family.inside
  · obtain ⟨kin, isTop, noParent, ofNode⟩ := family.top
    refine ⟨_, getElem?_reparented isTop, ?_, ofNode⟩
    simpa [moved, Ne.symm notRoot] using noParent
  · rw [mem_cons, not_or]
    exact ⟨Ne.symm notRoot, family.fixed⟩
  · intro place after isThere other
    obtain ⟨kin, isOld, rfl⟩ := exists_of_reparented isThere
    have named := family.named isOld other
    exact named
  · intro place after isThere other boundStill
    obtain ⟨kin, isOld, rfl⟩ := exists_of_reparented isThere
    rw [mem_cons, not_or] at boundStill
    obtain ⟨above, isAbove⟩ := family.below isOld other boundStill.2
    exact ⟨above, by simpa [moved, boundStill.1] using isAbove⟩
  · intro different first second node isFirst isSecond
    rw [same] at isFirst isSecond
    exact family.distinct different isFirst isSecond
  · intro place node isNode
    rw [same] at isNode
    exact family.reaches isNode
  · intro place after node isThere isNode
    obtain ⟨kin, isOld, rfl⟩ := exists_of_reparented isThere
    have ordered := (family.ordered isOld isNode).congr
      (fun {place _} isNode => (same place).trans isNode)
    by_cases above : entry.parent = some place
    · simpa [moved, above] using ordered.filter (· != index)
    · simpa [moved, above] using ordered
  · intro place node isNode notOpen link isLink isTarget
    rw [same] at isNode
    obtain ⟨other, isOther⟩ := family.closed isNode notOpen link isLink isTarget
    exact ⟨other, (same other).trans isOther⟩
  · intro place after isThere isOpen
    obtain ⟨kin, isOld, rfl⟩ := exists_of_reparented isThere
    have bare := family.bare isOld isOpen
    simp [moved, bare]
  · intro place after isThere
    obtain ⟨kin, isOld, rfl⟩ := exists_of_reparented isThere
    have sized := family.sized isOld
    exact sized

end Moving

/-! ## Giving an entry its children -/

section Settling

theorem nodeOf?_append (isNode : nodeOf? table place = some node) (more : List Kin) :
    nodeOf? (table ++ more) place = some node := by
  obtain ⟨_, found, named⟩ := exists_of_nodeOf? isNode
  rw [nodeOf?, List.getElem?_append_left (List.getElem?_eq_some_iff.1 found).1, found,
    Option.bind_some, named]

theorem Family.added (family : Family forest links roots table loose opened)
    (absent : roots.nodes.Nodup → ∀ place, nodeOf? table place ≠ some node)
    (leads : ∃ root ∈ roots.nodes, ReflTransGen (Feeds links) node root) :
    Family forest links roots (table ++ [kinOf forest node]) (table.length :: loose)
      (table.length :: opened) := by
  have isNodeOld {place : Nat} {other : NodeRef}
      (isNode : nodeOf? (table ++ [kinOf forest node]) place = some other) :
      nodeOf? table place = some other ∨ place = table.length ∧ other = node := by
    obtain ⟨kin, found, named⟩ := exists_of_nodeOf? isNode
    rcases getElem?_concat found with isOld | ⟨isLast, rfl⟩
    · exact .inl ((nodeOf?_eq isOld).trans named)
    · exact .inr ⟨isLast, (Option.some.inj named).symm⟩
  obtain ⟨top, isTop, noParent, alone⟩ := family.top
  have notEmpty : 0 < table.length := (List.getElem?_eq_some_iff.1 isTop).1
  refine ⟨family.woven.added rfl rfl rfl rfl, ?_, ?_, ?_, ?_, ?_, ?_, ?_, ?_, ?_, ?_, ?_, ?_⟩
  · exact nodup_cons.2 ⟨fun member => Nat.lt_irrefl _ (family.inside _ member), family.nodup⟩
  · intro place member
    rw [length_append]
    rcases mem_cons.1 member with rfl | before
    · exact Nat.lt_succ_self _
    · exact Nat.lt_succ_of_lt (family.inside place before)
  · exact ⟨top, (List.getElem?_append_left notEmpty).trans isTop, noParent, alone⟩
  · rw [mem_cons, not_or]
    exact ⟨Nat.ne_of_lt notEmpty, family.fixed⟩
  · intro place kin found notRoot
    rcases getElem?_concat found with isOld | ⟨_, rfl⟩
    · exact family.named isOld notRoot
    · exact ⟨node, rfl⟩
  · intro place kin found notRoot bound
    rw [mem_cons, not_or] at bound
    rcases getElem?_concat found with isOld | ⟨isLast, _⟩
    · exact family.below isOld notRoot bound.2
    · exact absurd isLast bound.1
  · intro different first second other isFirst isSecond
    rcases isNodeOld isFirst with oldFirst | ⟨isLast, rfl⟩
    · rcases isNodeOld isSecond with oldSecond | ⟨_, rfl⟩
      · exact family.distinct different oldFirst oldSecond
      · exact absurd oldFirst (absent different first)
    · rcases isNodeOld isSecond with oldSecond | ⟨isLastToo, _⟩
      · exact absurd oldSecond (absent different second)
      · rw [isLast, isLastToo]
  · intro place other isNode
    rcases isNodeOld isNode with old | ⟨_, rfl⟩
    · exact family.reaches old
    · exact leads
  · intro place kin other found isNode
    rcases getElem?_concat found with isOld | ⟨_, rfl⟩
    · exact (family.ordered isOld isNode).congr fun named => nodeOf?_append named _
    · exact ⟨[], rfl, nofun, .nil⟩
  · intro place other isNode notOpen link isLink isTarget
    rw [mem_cons, not_or] at notOpen
    rcases isNodeOld isNode with old | ⟨isLast, _⟩
    · obtain ⟨source, isSource⟩ := family.closed old notOpen.2 link isLink isTarget
      exact ⟨source, nodeOf?_append isSource _⟩
    · exact absurd isLast notOpen.1
  · intro place kin found isOpen
    rcases getElem?_concat found with isOld | ⟨_, rfl⟩
    · refine family.bare isOld ((mem_cons.1 isOpen).resolve_left ?_)
      rintro rfl
      exact Nat.lt_irrefl _ (List.getElem?_eq_some_iff.1 isOld).1
    · rfl
  · intro place kin found
    rcases getElem?_concat found with isOld | ⟨_, rfl⟩
    · exact family.sized isOld
    · rfl

theorem Family.addedAll (fresh : List NodeRef) (nodup : roots.nodes.Nodup → fresh.Nodup)
    (family : Family forest links roots table loose opened)
    (absent : roots.nodes.Nodup → ∀ source ∈ fresh, ∀ place, nodeOf? table place ≠ some source)
    (leads : ∀ source ∈ fresh, ∃ root ∈ roots.nodes, ReflTransGen (Feeds links) source root) :
    Family forest links roots (table ++ fresh.map (kinOf forest))
      (range' table.length fresh.length ++ loose)
      (range' table.length fresh.length ++ opened) := by
  induction fresh generalizing table loose opened with
  | nil => simpa using family
  | cons source fresh ih =>
    have first := family.added (absent · source mem_cons_self) (leads source mem_cons_self)
    have rest := ih (fun different => (nodup_cons.1 (nodup different)).2) first
      (fun different other member place isNode => by
        obtain ⟨_, found, named⟩ := exists_of_nodeOf? isNode
        rcases getElem?_concat found with isOld | ⟨_, rfl⟩
        · exact absent different other (mem_cons_of_mem _ member) place
            ((nodeOf?_eq isOld).trans named)
        · cases named
          exact (nodup_cons.1 (nodup different)).1 member)
      (fun other member => leads other (mem_cons_of_mem _ member))
    rw [append_assoc, length_append] at rest
    have swap (items : List Nat) (place : Nat) :
        place ∈ range' table.length (fresh.length + 1) ++ items ↔
          place ∈ range' (table.length + 1) fresh.length ++ table.length :: items := by
      simp [range'_succ]
      tauto
    refine rest.congr (swap loose) ?_ (swap opened)
    refine nodup_append.2 ⟨nodup_range', family.nodup, ?_⟩
    intro place isNew other isOpen
    have new := mem_range'_1.1 isNew
    have old := family.inside other isOpen
    omega

theorem nodeOf?_settled (table : List Kin) (index : Nat) (children : List Nat) (place : Nat) :
    nodeOf? (settled table index children) place = nodeOf? table place := by
  cases isThere : table[place]? with
  | none =>
    have outside : (settled table index children)[place]? = none := by
      rw [getElem?_eq_none_iff] at isThere ⊢
      rwa [length_settled]
    rw [nodeOf?, nodeOf?, isThere, outside]
  | some kin =>
    obtain ⟨kept, isKept, settled⟩ : ∃ kept, (settled table index children)[place]? = some kept ∧
        Kin.Settled index children place kin kept := exists_settled children isThere
    rw [nodeOf?_eq isThere, nodeOf?_eq isKept, settled.node]

theorem Family.settled (family : Family forest links roots table loose opened) {above : Kin}
    (found : table[index]? = some above) (isOpen : index ∈ opened) {children : List Nat}
    (nodup : children.Nodup) (all : ∀ place, place ∈ children ↔ place ∈ loose)
    (ordered : ∀ node, above.node = some node → Ordered links table node children)
    (covered : ∀ node, above.node = some node → ∀ link ∈ links, link.target.owner = node →
      ∃ other, nodeOf? table other = some link.source.owner) (nodupStill : still.Nodup)
    (rest : ∀ place, place ∈ still ↔ place ∈ opened ∧ place ≠ index) :
    Family forest links roots (Kin.settled table index children) [] still := by
  have same := nodeOf?_settled table index children
  refine ⟨family.woven.settled found (family.bare found isOpen) nodup all, nodupStill,
    ?_, ?_, nofun, ?_, ?_, ?_, ?_, ?_, ?_, ?_, ?_⟩
  · intro place member
    rw [length_settled]
    exact family.inside place ((rest place).1 member).1
  · obtain ⟨top, isTop, noParent, alone⟩ := family.top
    obtain ⟨kept, isKept, settled⟩ := exists_settled children isTop
    refine ⟨kept, isKept, ?_, ?_⟩
    · exact (settled.others fun member => family.fixed ((all 0).1 member)).1.trans noParent
    · exact settled.node.trans alone
  · intro place kin isThere notRoot
    obtain ⟨old, isOld, settled⟩ := exists_of_settled isThere
    rw [settled.node]
    exact family.named isOld notRoot
  · intro place kin isThere notRoot _
    obtain ⟨old, isOld, settled⟩ := exists_of_settled isThere
    by_cases member : place ∈ children
    · exact ⟨index, settled.parent member⟩
    · rw [(settled.others member).1]
      exact family.below isOld notRoot fun isLoose => member ((all place).2 isLoose)
  · intro different first second node isFirst isSecond
    rw [same] at isFirst isSecond
    exact family.distinct different isFirst isSecond
  · intro place node isNode
    rw [same] at isNode
    exact family.reaches isNode
  · intro place kin node isThere isNode
    obtain ⟨old, isOld, settled⟩ := exists_of_settled isThere
    rw [settled.node] at isNode
    have renamed {place : Nat} {node : NodeRef} (isNode : nodeOf? table place = some node) :
        nodeOf? (Kin.settled table index children) place = some node := (same place).trans isNode
    rw [settled.children]
    by_cases here : index = place
    · subst here
      cases isOld.symm.trans found
      rw [if_pos rfl]
      exact (ordered node isNode).congr renamed
    · rw [if_neg here]
      exact (family.ordered isOld isNode).congr renamed
  · intro place node isNode notOpen link isLink isTarget
    rw [same] at isNode
    obtain ⟨other, isOther⟩ : ∃ other, nodeOf? table other = some link.source.owner := by
      by_cases here : place = index
      · subst here
        exact covered node ((nodeOf?_eq found).symm.trans isNode) link isLink isTarget
      · exact family.closed isNode
          (fun member => notOpen ((rest place).2 ⟨member, here⟩)) link isLink isTarget
    exact ⟨other, (same other).trans isOther⟩
  · intro place kin isThere member
    obtain ⟨old, isOld, settled⟩ := exists_of_settled isThere
    obtain ⟨wasOpen, other⟩ := (rest place).1 member
    rw [settled.children, if_neg (Ne.symm other)]
    exact family.bare isOld wasOpen
  · intro place kin isThere
    obtain ⟨old, isOld, settled⟩ := exists_of_settled isThere
    rw [settled.width, settled.height, settled.node]
    exact family.sized isOld

theorem Family.start (noParent : first.parent = none) (noChildren : first.children = [])
    (noLeft : first.left = none) (noRight : first.right = none) (isRoot : first.node = roots.node?)
    (sized : (first.width, first.height) = sizeIn forest first.node) :
    Family forest links roots [first] [] [0] := by
  have only {place : Nat} {kin : Kin} (found : [first][place]? = some kin) :
      place = 0 ∧ kin = first := by
    cases place with
    | zero =>
      cases found
      exact ⟨rfl, rfl⟩
    | succ place => cases found
  have woven : Kin.Woven [first] [] := by
    refine ⟨?_, ?_, ?_, nofun, ?_⟩
    · intro place kin found
      rw [(only found).2, noChildren]
      trivial
    · intro place kin found
      rw [(only found).2, noChildren]
      exact nodup_nil
    · intro place parent kin found isChild
      rw [(only found).2, noParent] at isChild
      cases isChild
    · intro place kin found _
      rw [(only found).2]
      exact ⟨noLeft, noRight⟩
  have onlyNode {place : Nat} {node : NodeRef} (isNode : nodeOf? [first] place = some node) :
      place = 0 ∧ first.node = some node := by
    obtain ⟨kin, found, named⟩ := exists_of_nodeOf? isNode
    exact ⟨(only found).1, (only found).2 ▸ named⟩
  refine ⟨woven, by simp, by simp, ⟨first, rfl, noParent, isRoot⟩, nofun, ?_, ?_, ?_, ?_,
    ?_, ?_, ?_, ?_⟩
  · intro place kin found notRoot
    exact absurd (only found).1 notRoot
  · intro place kin found notRoot
    exact absurd (only found).1 notRoot
  · intro _ one two node isOne isTwo
    exact (onlyNode isOne).1.trans (onlyNode isTwo).1.symm
  · intro place node isNode
    have alone := isRoot.symm.trans (onlyNode isNode).2
    exact ⟨node, by simp [Roots.nodes_eq alone], .refl⟩
  · intro place kin node found isNode
    rw [(only found).2, noChildren]
    exact ⟨[], rfl, nofun, .nil⟩
  · intro place node isNode notOpen
    rw [(onlyNode isNode).1] at notOpen
    exact absurd mem_cons_self notOpen
  · intro place kin found _
    rw [(only found).2, noChildren]
  · intro place kin found
    rw [(only found).2]
    exact sized

end Settling

end NodeFormula.Layout
