import NodeFormula.Proofs.Layout.Families

/-!
# From links to a tree

Whatever acyclic links there are, building the tree comes to an end, and every node that
feeds a root has one entry.  A node with several consumers may be moved from one parent to
another on the way.
-/

namespace NodeFormula.Layout

open List Relation

variable {forest : Forest} {links : List Link} {layout : Layout}

/-! ## Finding children -/

/-- While the tree is built the entries are a family, and all but the first were met. -/
structure Growing (forest : Forest) (links : List Link) (roots : Roots) (layout : Layout)
    (loose opened : List Nat) : Prop where
  family : Family forest links roots layout.kin loose opened
  visited : layout.visited = List.range' 1 (layout.entries.length - 1)
  forest : SameUnselected forest layout.forest

/-- The links that were found to make children of an entry. -/
structure Found (links : List Link) (table : List Kin) (node : NodeRef)
    (found : List (Link × Option Nat)) : Prop where
  link : ∀ pair ∈ found, pair.1 ∈ links ∧ pair.1.target.owner = node
  nodup : (found.map (·.1.source.owner)).Nodup
  known : ∀ {link : Link} {other : Nat}, (link, some other) ∈ found →
    other ≠ 0 ∧ nodeOf? table other = some link.source.owner
  fresh : ∀ {link : Link}, (link, none) ∈ found →
    ∀ index, nodeOf? table index ≠ some link.source.owner

/-- Every source of these links has an entry or is among those that were found. -/
def Covered (table : List Kin) (node : NodeRef) (found : List (Link × Option Nat))
    (seen : List Link) : Prop :=
  ∀ link ∈ seen, link.target.owner = node →
    (∃ other, nodeOf? table other = some link.source.owner) ∨
      link.source.owner ∈ found.map (·.1.source.owner)

section Finding

variable {link : Link}

theorem bind_node_eq (layout : Layout) (index : Nat) :
    layout.entries[index]?.bind (·.node) = nodeOf? layout.kin index := by
  rw [nodeOf?, getElem?_kin]
  cases layout.entries[index]? <;> rfl

theorem lt_length_of_node (isNode : nodeOf? layout.kin index = some node) :
    index < layout.entries.length := by
  obtain ⟨kin, found, _⟩ := exists_of_nodeOf? isNode
  exact length_kin layout ▸ (List.getElem?_eq_some_iff.1 found).1

theorem Growing.visitedFor_cases (growing : Growing forest links roots layout loose opened)
    (node : NodeRef) : (∃ other, layout.visitedFor node = some other ∧ other ≠ 0 ∧
        nodeOf? layout.kin other = some node) ∨ layout.visitedFor node = none ∧
        ∀ index, index ≠ 0 → nodeOf? layout.kin index ≠ some node := by
  rw [visitedFor, growing.visited]
  cases met : (range' 1 (layout.entries.length - 1)).find?
      fun index => layout.entries[index]?.bind (·.node) == some node with
  | some other =>
    refine .inl ⟨other, rfl, ?_, ?_⟩
    · have member := mem_range'_1.1 (mem_of_find?_eq_some met)
      omega
    · have hit := find?_some met
      rw [← bind_node_eq]
      exact eq_of_beq hit
  | none =>
    refine .inr ⟨rfl, ?_⟩
    intro index notRoot isNode
    have inside := lt_length_of_node isNode
    have member : index ∈ range' 1 (layout.entries.length - 1) :=
      mem_range'_1.2 ⟨by omega, by omega⟩
    have unmet := find?_eq_none.1 met index member
    rw [bind_node_eq, isNode] at unmet
    exact unmet (beq_self_eq_true _)

theorem Covered.concat (covered : Covered table node found seen)
    (last : link.target.owner = node → (∃ other, nodeOf? table other = some link.source.owner) ∨
      link.source.owner ∈ found.map (·.1.source.owner)) :
    Covered table node found (seen ++ [link]) := by
  intro other member isTarget
  rcases mem_append.1 member with before | isLast
  · exact covered other before isTarget
  · cases mem_singleton.1 isLast
    exact last isTarget

theorem Covered.grown (covered : Covered table node found seen)
    (same : ∀ place, nodeOf? later place = nodeOf? table place) (link : Link) (known : Option Nat) :
    Covered later node (found ++ [(link, known)]) (seen ++ [link]) := by
  apply concat
  · intro other member isTarget
    rcases covered other member isTarget with ⟨place, isPlace⟩ | among
    · exact .inl ⟨place, (same place).trans isPlace⟩
    · rw [map_append]
      exact .inr (mem_append_left _ among)
  · intro _
    rw [map_append]
    exact .inr (mem_append_right _ mem_cons_self)

theorem Found.concat (isFound : Found links table node found)
    (same : ∀ place, nodeOf? later place = nodeOf? table place) (isLink : link ∈ links)
    (isTarget : link.target.owner = node) (unmet : link.source.owner ∉ found.map (·.1.source.owner))
    {known} (isKnown : ∀ other, known = some other → other ≠ 0 ∧
      nodeOf? table other = some link.source.owner)
    (isFresh : known = none → ∀ index, nodeOf? table index ≠ some link.source.owner) :
    Found links later node (found ++ [(link, known)]) := by
  refine ⟨?_, ?_, ?_, ?_⟩
  · exact forall_mem_append.2 ⟨isFound.link, forall_mem_singleton.2 ⟨isLink, isTarget⟩⟩
  · rw [map_append, nodup_append]
    refine ⟨isFound.nodup, by simp, ?_⟩
    intro source member last isLast
    have equal : last = link.source.owner := mem_singleton.1 isLast
    exact fun same => unmet (equal ▸ same ▸ member)
  · intro other place member
    rw [same]
    rcases mem_append.1 member with before | isLast
    · exact isFound.known before
    · cases mem_singleton.1 isLast
      exact isKnown place rfl
  · intro other member place
    rw [same]
    rcases mem_append.1 member with before | isLast
    · exact isFound.fresh before place
    · cases mem_singleton.1 isLast
      exact isFresh rfl place

theorem childLinks_ok (drawn : Drawn forest links) (depth : Nat) (split : seen ++ rest = links)
    (growing : Growing forest links roots layout (found.filterMap (·.2)) opened)
    (isNode : nodeOf? layout.kin index = some node) (isFound : Found links layout.kin node found)
    (covered : Covered layout.kin node found seen) :
    ∃ result after, childLinks index node depth found rest layout = .ok result after ∧
      Framed layout after ∧ (∀ place, nodeOf? after.kin place = nodeOf? layout.kin place) ∧
      Growing forest links roots after (result.filterMap (·.2)) opened ∧
      Found links after.kin node result ∧ Covered after.kin node result links := by
  induction rest generalizing layout found seen with
  | nil =>
    rw [append_nil] at split
    subst split
    exact ⟨found, layout, rfl, .refl _, fun _ => rfl, growing, isFound, covered⟩
  | cons link rest ih =>
    have isLink : link ∈ links := by
      rw [← split]
      simp
    have splitNext : (seen ++ [link]) ++ rest = links := by
      rw [append_assoc]
      exact split
    rw [childLinks]
    by_cases skip :
        (link.target.owner ≠ node || found.any (·.1.source.owner == link.source.owner)) = true
    · rw [if_pos skip]
      refine ih splitNext growing isNode isFound (covered.concat fun isTarget => .inr ?_)
      have met : found.any (·.1.source.owner == link.source.owner) = true := by
        simpa [isTarget] using skip
      obtain ⟨pair, member, same⟩ := any_eq_true.1 met
      exact mem_map.2 ⟨pair, member, eq_of_beq same⟩
    · rw [if_neg skip, bind_get]
      have isTarget : link.target.owner = node := by
        by_contra other
        exact skip (by simp [other])
      have unmet : link.source.owner ∉ found.map (·.1.source.owner) := by
        intro member
        obtain ⟨pair, isPair, same⟩ := mem_map.1 member
        refine skip (Bool.or_eq_true_iff.2 (.inr (any_eq_true.2 ⟨pair, isPair, ?_⟩)))
        exact beq_iff_eq.2 same
      have feeds : Feeds links link.source.owner node := ⟨link, isLink, rfl, isTarget⟩
      rcases growing.visitedFor_cases link.source.owner with
        ⟨other, isOther, notRoot, hasNode⟩ | ⟨isNone, absent⟩
      · rw [isOther]
        obtain ⟨kin, isKin, _⟩ := exists_of_nodeOf? hasNode
        obtain ⟨whole, isWhole, rfl⟩ := exists_entry isKin
        simp only [bind_of_ok (entryAt_of_some isWhole)]
        by_cases shallow : whole.depth ≤ depth
        · rw [if_pos shallow]
          have bound : other ∉ found.filterMap (·.2) := by
            intro member
            obtain ⟨⟨_, _⟩, isPair, rfl⟩ := mem_filterMap.1 member
            have sameNode := (isFound.known isPair).2.symm.trans hasNode
            exact unmet (mem_map.2 ⟨_, isPair, Option.some.inj sameNode⟩)
          obtain ⟨_, falls, low⟩ := growing.family.exists_height drawn.acyclic
          have lowHere := low other
          rw [length_kin] at lowHere
          obtain ⟨middle, done, frame, kin⟩ := reparent_ok isKin falls lowHere index
          have same (place : Nat) : nodeOf? middle.kin place = nodeOf? layout.kin place := by
            rw [kin]
            exact nodeOf?_reparented ..
          have family := growing.family.reparented isKin notRoot bound index
          rw [← kin] at family
          have count : middle.entries.length = layout.entries.length := by
            have lengths := congrArg length kin
            simpa [Kin.reparented, length_kin] using lengths
          have growingNext : Growing forest links roots middle
              ((found ++ [(link, some other)]).filterMap (·.2)) opened := by
            refine ⟨family.congr (fun place => by simp [or_comm]) family.nodup fun _ =>
              .rfl, ?_, ?_⟩
            · rw [frame, count]
              exact growing.visited
            · rw [frame]
              exact growing.forest
          have isFoundNext : Found links middle.kin node (found ++ [(link, some other)]) :=
            isFound.concat same isLink isTarget unmet
              (fun place isPlace => Option.some.inj isPlace ▸ ⟨notRoot, hasNode⟩)
              fun isNone => by cases isNone
          rcases ih splitNext growingNext ((same index).trans isNode) isFoundNext
            (covered.grown same link (some other)) with
            ⟨result, after, rest, framed, sameAfter, holds⟩
          exact ⟨result, after, (bind_of_ok done).trans rest,
            (Framed.of_entries frame).trans framed,
            fun place => (sameAfter place).trans (same place), holds⟩
        · rw [if_neg shallow]
          exact ih splitNext growing isNode isFound (covered.concat fun _ => .inl ⟨other, hasNode⟩)
      · rw [isNone]
        have growingNext : Growing forest links roots layout
            ((found ++ [(link, (none : Option Nat))]).filterMap (·.2)) opened := by
          simpa using growing
        refine ih splitNext growingNext isNode ?_ (covered.grown (fun _ => rfl) link none)
        refine isFound.concat (fun _ => rfl) isLink isTarget unmet
          (fun _ isPlace => by cases isPlace) fun _ place => ?_
        by_cases first : place = 0
        · rw [first]
          exact growing.family.root_ne drawn.acyclic isNode feeds
        · exact absent place first

end Finding

/-! ## Children in the order of sockets -/

section Sockets

variable {count : Nat}

theorem mem_inSocketOrder :
    pair ∈ inSocketOrder count found ↔ pair ∈ found ∧ pair.1.target.index < count := by
  simp only [inSocketOrder, mem_flatMap, mem_range, mem_filter, beq_iff_eq]
  constructor
  · rintro ⟨_, inside, member, rfl⟩
    exact ⟨member, inside⟩
  · rintro ⟨member, inside⟩
    exact ⟨_, inside, member, rfl⟩

theorem sorted_inSocketOrder (count : Nat) (found : List (Link × Option Nat)) :
    (inSocketOrder count found).Pairwise fun first second =>
      first.1.target.index ≤ second.1.target.index := by
  have socketOf {socket : Nat} {pair : Link × Option Nat}
      (member : pair ∈ found.filter (·.1.target.index == socket)) : pair.1.target.index = socket :=
    eq_of_beq (mem_filter.1 member).2
  rw [inSocketOrder, pairwise_flatMap]
  constructor
  · intro socket _
    apply pairwise_of_forall_mem_list
    intro first isFirst second isSecond
    rw [socketOf isFirst, socketOf isSecond]
  · refine pairwise_lt_range.imp ?_
    intro early late before first isFirst second isSecond
    rw [socketOf isFirst, socketOf isSecond]
    exact Nat.le_of_lt before

theorem nodup_inSocketOrder (count : Nat) (nodup : (found.map (·.1.source.owner)).Nodup) :
    ((inSocketOrder count found).map (·.1.source.owner)).Nodup := by
  rw [List.Nodup, pairwise_map, inSocketOrder, pairwise_flatMap]
  constructor
  · intro socket _
    exact (pairwise_map.1 nodup).filter _
  · refine nodup_range.imp ?_
    intro early late differ first isFirst second isSecond sameSource
    rw [mem_filter, beq_iff_eq] at isFirst isSecond
    have same := inj_on_of_nodup_map nodup isFirst.1 isSecond.1 sameSource
    exact differ (isFirst.2.symm.trans ((congrArg (·.1.target.index) same).trans isSecond.2))

theorem length_numbered (first : Nat) (found : List (Link × Option Nat)) :
    (numbered first found).length = found.length := by
  fun_induction numbered first found <;> simp_all

theorem mem_numbered : index ∈ (numbered first found).map (·.1) ↔
      index ∈ range' first (newcomers found).length ++ found.filterMap (·.2) := by
  fun_induction numbered first found with
  | case1 => simp [newcomers]
  | case2 first link known rest ih =>
    simp only [map_cons, mem_cons, ih]
    simp [newcomers, or_left_comm]
  | case3 first link rest ih =>
    simp only [map_cons, mem_cons, ih]
    simp [newcomers, range'_succ]

theorem nodup_numbered (nodup : (found.filterMap (·.2)).Nodup)
    (old : ∀ index ∈ found.filterMap (·.2), index < first) :
    ((numbered first found).map (·.1)).Nodup := by
  fun_induction numbered first found with
  | case1 => exact nodup_nil
  | case2 first link known rest ih =>
    obtain ⟨notIn, nodupRest⟩ := nodup_cons.1 nodup
    refine nodup_cons.2 ⟨?_, ih nodupRest fun index member =>
      old index (mem_cons_of_mem _ member)⟩
    show known ∉ _
    rw [mem_numbered, mem_append, mem_range'_1, not_or]
    have below : known < first := old known mem_cons_self
    exact ⟨by omega, notIn⟩
  | case3 first link rest ih =>
    refine nodup_cons.2 ⟨?_, ih nodup fun index member => Nat.lt_succ_of_lt (old index member)⟩
    show first ∉ _
    rw [mem_numbered, mem_append, mem_range'_1, not_or]
    exact ⟨by omega, fun member => Nat.lt_irrefl _ (old first member)⟩

def newOf (child : Nat × Bool) : Option Nat := if child.2 then some child.1 else none

theorem news_numbered (first : Nat) (found : List (Link × Option Nat)) :
    (numbered first found).filterMap newOf = range' first (newcomers found).length := by
  fun_induction numbered first found with
  | case1 => rfl
  | case2 first link known rest ih => simpa [newcomers, newOf] using ih
  | case3 first link rest ih => simpa [newcomers, newOf, range'_succ] using ih

theorem nodeOf?_numbered (known : ∀ {link other}, (link, some other) ∈ found →
      nodeOf? table other = some link.source.owner)
    (member : pair ∈ ((numbered table.length found).map (·.1)).zip (found.map (·.1))) :
    nodeOf? (table ++ (newcomers found).map (kinOf forest)) pair.1 = some pair.2.source.owner := by
  induction found generalizing table with
  | nil => cases member
  | cons first rest ih =>
    rcases first with ⟨link, _ | other⟩
    · rcases mem_cons.1 member with rfl | later
      · rw [nodeOf?, getElem?_append_right (Nat.le_refl _), Nat.sub_self]
        rfl
      · have added : nodeOf? ((table ++ [kinOf forest link.source.owner]) ++
            (newcomers rest).map (kinOf forest)) pair.1 = some pair.2.source.owner := by
          apply ih
          · exact fun isKnown => nodeOf?_append (known (mem_cons_of_mem _ isKnown)) _
          · rw [length_append]
            exact later
        rwa [append_assoc] at added
    · rcases mem_cons.1 member with rfl | later
      · exact nodeOf?_append (known mem_cons_self) _
      · exact ih (fun isKnown => known (mem_cons_of_mem _ isKnown)) later

end Sockets

/-! ## Building the tree -/

section Building

theorem inputs_of_same {before after} (same : SameUnselected before after)
    (isNode : before.node? node = some known) :
    ∃ later, after.node? node = some later ∧ later.inputs = known.inputs := by
  have here := same node
  rw [isNode, Option.map_some, Option.map_eq_some_iff] at here
  obtain ⟨later, isLater, agree⟩ := here
  have inputs := congrArg Node.inputs agree
  exact ⟨later, isLater, inputs⟩

theorem mem_inSocketOrder_iff (drawn : Drawn forest links)
    (same : SameUnselected forest layout.forest) (isFound : Found links layout.kin node found) :
    pair ∈ inSocketOrder ((layout.forest.node? node).getD ((NodeTree.empty "" "").freshNode "")
      ).inputs.length found ↔ pair ∈ found := by
  rw [mem_inSocketOrder, and_iff_left_iff_imp]
  intro member
  obtain ⟨isLink, isTarget⟩ := isFound.link pair member
  obtain ⟨_, isKnown, inside⟩ := drawn.target pair.1 isLink
  rw [isTarget] at isKnown
  obtain ⟨_, isLater, inputs⟩ := inputs_of_same same isKnown
  rw [isLater, Option.getD_some, inputs]
  exact inside

theorem Found.congr (isFound : Found links table node found)
    (same : ∀ pair, pair ∈ order ↔ pair ∈ found) (nodup : (order.map (·.1.source.owner)).Nodup) :
    Found links table node order := by
  refine ⟨?_, nodup, ?_, ?_⟩
  · exact fun pair member => isFound.link pair ((same pair).1 member)
  · exact fun member => isFound.known ((same _).1 member)
  · exact fun member => isFound.fresh ((same _).1 member)

theorem Found.nodup_known (isFound : Found links table node found) :
    (found.filterMap (·.2)).Nodup := by
  rw [List.Nodup, pairwise_filterMap]
  refine (pairwise_map.1 isFound.nodup).imp_of_mem ?_
  rintro ⟨early, _⟩ ⟨late, _⟩ isEarly isLate differ first rfl second rfl rfl
  exact differ (Option.some.inj ((isFound.known isEarly).2.symm.trans (isFound.known isLate).2))

theorem Found.newcomers (isFound : Found links table node found)
    (member : source ∈ newcomers found) :
    Feeds links source node ∧ ∀ place, nodeOf? table place ≠ some source := by
  obtain ⟨⟨link, known⟩, isPair, rfl⟩ := mem_map.1 member
  rw [mem_filter] at isPair
  obtain ⟨inFound, isNone⟩ := isPair
  cases known with
  | some other => cases isNone
  | none =>
    obtain ⟨isLink, isTarget⟩ := isFound.link _ inFound
    exact ⟨⟨link, isLink, rfl, isTarget⟩, isFound.fresh inFound⟩

/-- Nothing is loose, these entries are still open, and no node is lost. -/
structure Grown (forest : Forest) (links : List Link) (roots : Roots) (before after : Layout)
    (opened : List Nat) : Prop where
  framed : Framed before after
  growing : Growing forest links roots after [] opened
  persists : ∀ {place : Nat} {node : NodeRef}, nodeOf? before.kin place = some node →
    nodeOf? after.kin place = some node

theorem Grown.refl (growing : Growing forest links roots layout [] opened) :
    Grown forest links roots layout layout opened :=
  ⟨.refl layout, growing, id⟩

theorem Grown.trans {before middle after : Layout}
    (early : Grown forest links roots before middle opened)
    (late : Grown forest links roots middle after still) :
    Grown forest links roots before after still :=
  ⟨early.framed.trans late.framed, late.growing, fun isNode =>
    late.persists (early.persists isNode)⟩

theorem Growing.closed (growing : Growing forest links roots layout [] (index :: rest))
    (isNode : nodeOf? layout.kin index = some node) (covered : Covered layout.kin node [] links) :
    Growing forest links roots layout [] rest := by
  refine ⟨?_, growing.visited, growing.forest⟩
  obtain ⟨kin, isKin, named⟩ := exists_of_nodeOf? isNode
  obtain ⟨notIn, nodup⟩ := nodup_cons.1 growing.family.nodup
  have bare := growing.family.bare isKin mem_cons_self
  rw [← Kin.settled_nil isKin bare]
  refine growing.family.settled isKin mem_cons_self nodup_nil (fun _ => .rfl) ?_ ?_ nodup ?_
  · exact fun _ _ => ⟨[], rfl, nofun, .nil⟩
  · intro other isOther link isLink isTarget
    cases named.symm.trans isOther
    exact (covered link isLink isTarget).resolve_right nofun
  · intro place
    simp only [mem_cons]
    constructor
    · exact fun member => ⟨.inr member, fun same => notIn (same ▸ member)⟩
    · exact fun both => both.1.resolve_left both.2

theorem growAll_ok {α : Type} {items : List α} {step : α → Arrange Unit} {opens : α → Option Nat}
    (each : ∀ item ∈ items, ∀ {reached rest},
      Grown forest links roots start reached ((opens item).toList ++ rest) →
      ∃ after, step item reached = .ok () after ∧ Grown forest links roots reached after rest)
    (grown : Grown forest links roots start layout (items.filterMap opens ++ rest)) :
    ∃ after, items.forM step layout = .ok () after ∧ Grown forest links roots start after rest := by
  induction items generalizing layout with
  | nil => exact ⟨layout, rfl, grown⟩
  | cons item items ih =>
    have split : (item :: items).filterMap opens ++ rest =
        (opens item).toList ++ (items.filterMap opens ++ rest) := by
      cases isOpen : opens item <;> simp [isOpen]
    rw [split] at grown
    obtain ⟨_, done, grownMiddle⟩ := each item mem_cons_self grown
    rcases ih (fun other member => each other (mem_cons_of_mem _ member))
      (grown.trans grownMiddle) with ⟨after, finished, grownAfter⟩
    exact ⟨after, (bind_of_ok done).trans finished, grownAfter⟩

theorem giveChildren_ok (index : Nat) (children : List Nat) (layout : Layout) :
    ∃ after, adopt index none children { layout with
        entries := layout.entries.modify index fun entry => { entry with children } } =
          .ok () after ∧
      Framed layout after ∧ after.visited = layout.visited ∧
      after.kin = Kin.settled layout.kin index children := by
  obtain ⟨after, done, frame, kin⟩ := adopt_ok index children none { layout with
    entries := layout.entries.modify index fun entry => { entry with children } }
  refine ⟨after, done, (Framed.of_entries rfl).trans (Framed.of_entries frame), by rw [frame], ?_⟩
  rw [kin]
  congr 1
  exact map_kin_modify fun _ => rfl

theorem settle_ok
    (growing : Growing forest links roots layout (order.filterMap (·.2)) (index :: rest))
    (isNode : nodeOf? layout.kin index = some node) (isFound : Found links layout.kin node order)
    (sorted : order.Pairwise fun first second => first.1.target.index ≤ second.1.target.index)
    (covered : Covered layout.kin node order links) (depth : Nat) :
    let children := numbered layout.entries.length order
    ∃ middle after, makeChildren depth order layout = .ok children middle ∧
      adopt index none (children.map (·.1)) { middle with
        entries := middle.entries.modify index fun entry =>
          { entry with children := children.map (·.1) } } = .ok () after ∧
      Grown forest links roots layout after (children.filterMap newOf ++ rest) ∧
      ∀ child ∈ children, ∃ source, nodeOf? after.kin child.1 = some source ∧
        Feeds links source node := by
  intro children
  obtain ⟨middle, made, framed, kin, visited⟩ := makeChildren_ok depth order layout
  obtain ⟨after, done, framedAfter, visitedAfter, settledKin⟩ :=
    giveChildren_ok index (children.map (·.1)) middle
  let news := range' layout.entries.length (newcomers order).length
  have family : Family forest links roots middle.kin (news ++ order.filterMap (·.2))
      (news ++ index :: rest) := by
    have added := growing.family.addedAll (newcomers order)
      (fun _ => isFound.nodup.sublist (.map _ filter_sublist))
      (fun _ source member => (isFound.newcomers member).2)
      (fun source member => by
        obtain ⟨root, isRoot, way⟩ := growing.family.reaches isNode
        exact ⟨root, isRoot, way.head (isFound.newcomers member).1⟩)
    rw [kin, funext (kinOf_congr growing.forest)]
    rwa [length_kin] at added
  have persists {place : Nat} {other : NodeRef} (old : nodeOf? layout.kin place = some other) :
      nodeOf? middle.kin place = some other := by
    rw [kin]
    exact nodeOf?_append old _
  have sources {pair : Nat × Link} (member : pair ∈ (children.map (·.1)).zip (order.map (·.1))) :
      nodeOf? middle.kin pair.1 = some pair.2.source.owner := by
    rw [kin]
    refine nodeOf?_numbered (fun isKnown => (isFound.known isKnown).2) ?_
    rw [length_kin]
    exact member
  have sameLength : (children.map (·.1)).length = (order.map (·.1)).length := by
    rw [length_map, length_map, length_numbered]
  have seconds : ((children.map (·.1)).zip (order.map (·.1))).map (·.2) = order.map (·.1) :=
    map_snd_zip (Nat.le_of_eq sameLength.symm)
  obtain ⟨_, isAbove, isNodeAbove⟩ := exists_of_nodeOf? (persists isNode)
  obtain ⟨notIn, nodupRest⟩ := nodup_cons.1 growing.family.nodup
  have older {place : Nat} (member : place ∈ index :: rest) : place < layout.entries.length := by
    rw [← length_kin]
    exact growing.family.inside place member
  refine ⟨middle, after, made, done, ⟨framed.trans framedAfter, ⟨?_, ?_, ?_⟩, ?_⟩, ?_⟩
  · rw [settledKin, news_numbered]
    refine family.settled isAbove ?_ ?_ ?_ ?_ ?_ ?_ ?_
    · simp
    · refine nodup_numbered isFound.nodup_known ?_
      intro place member
      obtain ⟨⟨link, _⟩, isPair, rfl⟩ := mem_filterMap.1 member
      exact lt_length_of_node (isFound.known isPair).2
    · exact fun place => mem_numbered
    · intro other isOther
      cases isNodeAbove.symm.trans isOther
      refine ⟨(children.map (·.1)).zip (order.map (·.1)), ?_, ?_, ?_⟩
      · exact map_fst_zip (Nat.le_of_eq sameLength)
      · rintro ⟨place, link⟩ member
        obtain ⟨pair, isPair, rfl⟩ := mem_map.1 (of_mem_zip member).2
        obtain ⟨isLink, isTarget⟩ := isFound.link pair isPair
        exact ⟨isLink, isTarget, sources member⟩
      · have sortedLinks : (order.map (·.1)).Pairwise fun first second =>
            first.target.index ≤ second.target.index := pairwise_map.2 sorted
        rw [← seconds, pairwise_map] at sortedLinks
        exact sortedLinks
    · intro other isOther link isLink isTarget
      cases isNodeAbove.symm.trans isOther
      rcases covered link isLink isTarget with ⟨source, isSource⟩ | among
      · exact ⟨source, persists isSource⟩
      · obtain ⟨pair, isPair, same⟩ := mem_map.1 among
        have isSecond : pair.1 ∈ order.map (·.1) := mem_map.2 ⟨pair, isPair, rfl⟩
        rw [← seconds] at isSecond
        obtain ⟨⟨place, _⟩, member, rfl⟩ := mem_map.1 isSecond
        exact ⟨place, (sources member).trans (congrArg some same)⟩
    · refine nodup_append.2 ⟨nodup_range', nodupRest, ?_⟩
      intro place isNew other isOld
      have new := mem_range'_1.1 isNew
      have old := older (mem_cons_of_mem _ isOld)
      omega
    · intro place
      have notNew : index ∉ news := fun isNew =>
        Nat.not_lt.2 (mem_range'_1.1 isNew).1 (older mem_cons_self)
      simp only [mem_append, mem_cons]
      constructor
      · rintro (isNew | isOld)
        · exact ⟨.inl isNew, fun same => notNew (same ▸ isNew)⟩
        · exact ⟨.inr (.inr isOld), fun same => notIn (same ▸ isOld)⟩
      · rintro ⟨isNew | same | isOld, other⟩
        · exact .inl isNew
        · exact absurd same other
        · exact .inr isOld
  · have count : after.entries.length = layout.entries.length + (newcomers order).length := by
      rw [← length_kin, settledKin, Kin.length_settled, kin, length_append, length_map, length_kin]
    have positive := older mem_cons_self
    rw [visitedAfter, visited, growing.visited]
    have start : layout.entries.length = 1 + (layout.entries.length - 1) := by omega
    nth_rewrite 2 [start]
    rw [range'_append_1]
    congr 1
    omega
  · exact fun ref => ((framed.trans framedAfter).2 ref).trans (growing.forest ref)
  · intro place other old
    rw [settledKin, nodeOf?_settled]
    exact persists old
  · intro child member
    have isFirst : child.1 ∈ children.map (·.1) := mem_map.2 ⟨child, member, rfl⟩
    rw [← map_fst_zip (Nat.le_of_eq sameLength)] at isFirst
    obtain ⟨⟨_, link⟩, isPair, rfl⟩ := mem_map.1 isFirst
    obtain ⟨pair, inOrder, rfl⟩ := mem_map.1 (of_mem_zip isPair).2
    rw [settledKin, nodeOf?_settled]
    obtain ⟨isLink, isTarget⟩ := isFound.link pair inOrder
    exact ⟨_, sources isPair, pair.1, isLink, rfl, isTarget⟩

/-- Building the tree below an open entry comes to an end, and closes it. -/
theorem grow_ok (drawn : Drawn forest links) (listed : ∀ link ∈ links, link.source.owner ∈ nodes)
    (fuel depth : Nat) (growing : Growing forest links roots layout [] (index :: rest))
    (isLinks : layout.links = links) (isNode : nodeOf? layout.kin index = some node)
    (enough : rank links nodes node < fuel) : ∃ after, grow fuel index depth layout = .ok () after ∧
      Grown forest links roots layout after rest := by
  induction fuel generalizing index depth layout rest node with
  | zero => cases enough
  | succ fuel ih =>
    obtain ⟨kin, isKin, named⟩ := exists_of_nodeOf? isNode
    obtain ⟨whole, isWhole, rfl⟩ := exists_entry isKin
    have isNodeWhole : whole.node = some node := named
    have noneFound : Found links layout.kin node [] := ⟨nofun, nodup_nil, nofun, nofun⟩
    have noneCovered : Covered layout.kin node [] [] := nofun
    have noneLoose : Growing forest links roots layout
        (([] : List (Link × Option Nat)).filterMap (·.2)) (index :: rest) := growing
    rcases childLinks_ok drawn depth (nil_append links) noneLoose isNode noneFound noneCovered
      with ⟨found, reached, done, framed, same, growingFound, isFound, covered⟩
    have isNodeStill := (same index).trans isNode
    rw [grow, bind_of_ok (entryAt_of_some isWhole), isNodeWhole]
    simp only [bind_get, isLinks, bind_of_ok done]
    by_cases empty : found.isEmpty
    · cases isEmpty_iff.1 empty
      exact ⟨reached, rfl, framed, growingFound.closed isNodeStill covered,
        fun old => (same _).trans old⟩
    · rw [if_neg empty]
      let sockets := ((reached.forest.node? node).getD
        ((NodeTree.empty "" "").freshNode "")).inputs.length
      have sameFound (pair : Link × Option Nat) :
          pair ∈ inSocketOrder sockets found ↔ pair ∈ found :=
        mem_inSocketOrder_iff drawn growingFound.forest isFound
      have isOrdered := isFound.congr sameFound (nodup_inSocketOrder sockets isFound.nodup)
      have coveredStill : Covered reached.kin node (inSocketOrder sockets found) links := by
        intro link isLink isTarget
        simpa only [mem_map, sameFound] using covered link isLink isTarget
      have growingOrdered : Growing forest links roots reached
          ((inSocketOrder sockets found).filterMap (·.2)) (index :: rest) :=
        { growingFound with
          family := growingFound.family.congr (fun place => by simp only [mem_filterMap, sameFound])
            growingFound.family.nodup fun _ => .rfl }
      rcases settle_ok growingOrdered isNodeStill isOrdered (sorted_inSocketOrder sockets found)
        coveredStill depth with ⟨_, settled, making, adopting, grown, fed⟩
      let children := numbered reached.entries.length (inSocketOrder sockets found)
      obtain ⟨after, finished, grownAfter⟩ : ∃ after,
          children.forM (fun child => if child.2 then grow fuel child.1 (depth + 1) else pure ())
            settled = .ok () after ∧ Grown forest links roots settled after rest := by
        refine growAll_ok ?_ (.refl grown.growing)
        rintro ⟨child, isNew⟩ member current others grownCurrent
        cases isNew with
        | false => exact ⟨current, rfl, .refl grownCurrent.growing⟩
        | true =>
          obtain ⟨source, isSource, feeds⟩ := fed _ member
          have lower := rank_lt drawn.acyclic feeds (listed_of_feeds listed feeds)
          refine ih (depth + 1) grownCurrent.growing ?_ (grownCurrent.persists isSource) (by omega)
          rw [grownCurrent.framed.links, grown.framed.links, framed.links, isLinks]
      refine ⟨after, ?_, framed.trans (grown.trans grownAfter).framed, grownAfter.growing, ?_⟩
      · have known : nodeAt node reached = .ok _ reached := rfl
        rw [bind_of_ok known, bind_of_ok making, bind_of_ok (modifyEntry_eq ..),
          bind_of_ok adopting]
        exact finished
      · exact fun old => (grown.trans grownAfter).persists ((same _).trans old)

theorem addRoots_ok (nodes : List NodeRef) (layout : Layout) :
    ∃ after, addRoots nodes layout = .ok (range' layout.entries.length nodes.length) after ∧
      Framed layout after ∧ after.kin = layout.kin ++ nodes.map (kinOf layout.forest) ∧
      after.visited = layout.visited ++ range' layout.entries.length nodes.length := by
  induction nodes generalizing layout with
  | nil => exact ⟨layout, rfl, .refl _, by simp, by simp⟩
  | cons root nodes ih =>
    let known := (layout.forest.node? root).getD ((NodeTree.empty "" "").freshNode "")
    let made : Layout := { layout with
      entries := layout.entries ++ [.ofNode root known 1]
      visited := layout.visited ++ [layout.entries.length] }
    obtain ⟨after, done, framed, kin, visited⟩ := ih made
    have count : made.entries.length = layout.entries.length + 1 := by simp [made]
    have kinMade : made.kin = layout.kin ++ [kinOf layout.forest root] := map_append
    rw [count] at done visited
    refine ⟨after, bind_of_ok done, ?_, ?_, ?_⟩
    · exact Framed.trans ⟨rfl, fun _ => rfl⟩ framed
    · rw [kin, kinMade, append_assoc]
      rfl
    · rw [visited, append_assoc]
      rfl

def refsFrom : Nat → Forest → List NodeRef
  | _, [] => []
  | first, tree :: forest =>
    (List.range tree.nodes.length).map (NodeRef.mk first) ++ refsFrom (first + 1) forest

theorem length_refsFrom (first : Nat) (forest : Forest) :
    (refsFrom first forest).length = forest.foldr (·.nodes.length + ·) 0 := by
  induction forest generalizing first with
  | nil => rfl
  | cons tree forest ih =>
    rw [refsFrom, length_append, length_map, length_range, ih]
    rfl

theorem mem_refsFrom {node} (found : forest.node? ⟨place, index⟩ = some node) :
    (⟨first + place, index⟩ : NodeRef) ∈ refsFrom first forest := by
  induction forest generalizing first place with
  | nil => cases found
  | cons tree forest ih =>
    rw [refsFrom, mem_append]
    cases place with
    | zero =>
      have inside : index < tree.nodes.length := (List.getElem?_eq_some_iff.1 found).1
      exact .inl (mem_map.2 ⟨index, mem_range.2 inside, rfl⟩)
    | succ place =>
      have later : (⟨first + 1 + place, index⟩ : NodeRef) ∈ refsFrom (first + 1) forest := ih found
      rw [Nat.add_right_comm] at later
      exact .inr later

theorem severalRoots_ok (nodes : List NodeRef) (spacing : Spacing) :
    let children := List.range' 1 nodes.length
    let start : Layout := { Layout.new spacing links forest with entries := [.ofRoots] }
    ∃ middle after, addRoots nodes start = .ok children middle ∧ adopt 0 none children { middle with
        entries := middle.entries.modify 0 fun entry => { entry with children := children } } =
          .ok () after ∧
      Framed (Layout.new spacing links forest) after ∧
      Growing forest links (.several nodes) after [] children ∧
      ∀ root ∈ nodes, ∃ index, nodeOf? after.kin index = some root := by
  intro children start
  obtain ⟨middle, added, framed, kin, visited⟩ := addRoots_ok nodes start
  obtain ⟨after, done, framedAfter, visitedAfter, settledKin⟩ := giveChildren_ok 0 children middle
  have first : Family forest links (.several nodes) start.kin [] [0] :=
    .start rfl rfl rfl rfl rfl rfl
  have family : Family forest links (.several nodes) middle.kin (children ++ [])
      (children ++ [0]) := by
    rw [kin]
    refine first.addedAll nodes id ?_ ?_
    · rintro _ root _ (_ | place) ⟨⟩
    · exact fun root isRoot => ⟨root, isRoot, .refl⟩
  refine ⟨middle, after, added, done, ?_, ⟨?_, ?_, ?_⟩, ?_⟩
  · exact Framed.trans ⟨rfl, fun _ => rfl⟩ (framed.trans framedAfter)
  · have isTop : middle.kin[0]? = some LayoutEntry.ofRoots.kin := by
      rw [kin]
      rfl
    rw [settledKin]
    refine family.settled isTop ?_ nodup_range' ?_ ?_ ?_ nodup_range' ?_
    · simp
    · exact fun place => by rw [append_nil]
    · rintro _ ⟨⟩
    · rintro _ ⟨⟩
    · intro place
      have apart (isRoot : place ∈ children) : place ≠ 0 := by
        have positive := (mem_range'_1.1 isRoot).1
        omega
      rw [mem_append, mem_singleton]
      exact ⟨fun isRoot => ⟨.inl isRoot, apart isRoot⟩, fun both => both.1.resolve_right both.2⟩
  · have count : after.entries.length = nodes.length + 1 := by
      rw [← length_kin, settledKin, Kin.length_settled, kin, length_append, length_map,
        Nat.add_comm]
      rfl
    rw [visitedAfter, visited, count]
    rfl
  · exact (framed.trans framedAfter).2
  · intro root isRoot
    obtain ⟨place, isPlace⟩ := getElem?_of_mem isRoot
    refine ⟨1 + place, ?_⟩
    rw [settledKin, nodeOf?_settled, nodeOf?, kin, getElem?_append_right (Nat.le_add_right 1 place)]
    simp [start, Layout.kin, isPlace, kinOf, LayoutEntry.ofNode, LayoutEntry.kin]

/-- Building the tree of some roots comes to an end with all entries closed. -/
theorem growRoots_ok (drawn : Drawn forest links) (roots : Roots) (spacing : Spacing) :
    ∃ after, growRoots roots (new spacing links forest) = .ok 0 after ∧
      Framed (new spacing links forest) after ∧ Growing forest links roots after [] [] ∧
      ∀ root ∈ roots.nodes, ∃ index, nodeOf? after.kin index = some root := by
  have listed : ∀ link ∈ links, link.source.owner ∈ refsFrom 0 forest := by
    intro link isLink
    obtain ⟨node, isNode⟩ := drawn.source link isLink
    have member : (⟨0 + link.source.owner.tree, link.source.owner.index⟩ : NodeRef) ∈
        refsFrom 0 forest := mem_refsFrom isNode
    rwa [Nat.zero_add] at member
  have enough (node : NodeRef) :
      rank links (refsFrom 0 forest) node < (new spacing links forest).growFuel := by
    have bound := rank_le links (refsFrom 0 forest) node
    rw [length_refsFrom] at bound
    exact Nat.lt_succ_of_le (Nat.le_succ_of_le bound)
  cases roots with
  | single root =>
    let made : Layout := { new spacing links forest with
      entries := [.ofNode root ((forest.node? root).getD ((NodeTree.empty "" "").freshNode "")) 0] }
    have growing : Growing forest links (.single root) made [] [0] :=
      ⟨.start rfl rfl rfl rfl rfl rfl, rfl, fun _ => rfl⟩
    rcases grow_ok drawn listed (new spacing links forest).growFuel 0 growing rfl rfl
      (enough root) with ⟨after, done, grown⟩
    refine ⟨after, bind_of_ok done, .trans ⟨rfl, fun _ => rfl⟩ grown.framed, grown.growing, ?_⟩
    intro other isRoot
    cases mem_singleton.1 isRoot
    exact ⟨0, grown.persists rfl⟩
  | several nodes =>
    obtain ⟨_, settled, adding, adopting, framed, growing, areRoots⟩ :=
      severalRoots_ok nodes spacing
    have growingAll : Growing forest links (.several nodes) settled []
        ((range' 1 nodes.length).filterMap some ++ []) := by simpa using growing
    obtain ⟨after, done, grown⟩ : ∃ after, (range' 1 nodes.length).forM
        (fun child => grow (new spacing links forest).growFuel child 1) settled = .ok () after ∧
          Grown forest links (.several nodes) settled after [] := by
      refine growAll_ok ?_ (.refl growingAll)
      intro child member current others grown
      have inside := growing.family.inside child member
      have notRoot : child ≠ 0 := by
        have positive := (mem_range'_1.1 member).1
        omega
      obtain ⟨root, isRoot⟩ := growing.family.named (getElem?_eq_getElem inside) notRoot
      have isNode := (nodeOf?_eq (getElem?_eq_getElem inside)).trans isRoot
      refine grow_ok drawn listed _ 1 grown.growing ?_ (grown.persists isNode) (enough root)
      rw [grown.framed.links, framed.links]
      rfl
    refine ⟨after, ?_, framed.trans grown.framed, grown.growing, ?_⟩
    · rw [growRoots, bind_get]
      simp only
      have start : addEntry .ofRoots (new spacing links forest) =
        .ok 0 { new spacing links forest with entries := [.ofRoots] } := rfl
      rw [bind_of_ok start, bind_of_ok adding, bind_of_ok (modifyEntry_eq ..), bind_of_ok adopting,
        bind_of_ok done]
      rfl
    · intro root isRoot
      obtain ⟨index, isNode⟩ := areRoots root isRoot
      exact ⟨index, grown.persists isNode⟩

end Building

end NodeFormula.Layout
