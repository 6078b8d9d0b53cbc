import NodeFormula.Proofs.Layout.Placement

/-!
# Levels

Arranging comes to an end exactly if there is room for all levels of the tree.  Each level has its
own column, so a link goes from left to right exactly if its source is on a deeper level than its
target, as a node is that is below another one in the tree.
-/

namespace NodeFormula.Layout

open List Option Relation

variable {forest : Forest} {links : List Link} {spacing : Spacing} {after : Layout}

/-! ## Room for the levels -/

/-- If a step comes to an end, it leaves the tree and the number of levels alone. -/
structure Still {α} (step : Arrange α) : Prop where
  keeps : ∀ {layout answer after}, step layout = .ok answer after →
    after.kin = layout.kin ∧ after.previous.length = layout.previous.length

section Depth

theorem Still.bind {next : α → Arrange β} (first : Still step)
    (rest : ∀ answer, Still (next answer)) : Still (step >>= next) := by
  refine ⟨fun done => ?_⟩
  obtain ⟨value, _, early, late⟩ := bind_eq_ok done
  obtain ⟨kin, length⟩ := first.keeps early
  obtain ⟨kinLate, lengthLate⟩ := (rest value).keeps late
  exact ⟨kinLate.trans kin, lengthLate.trans length⟩

theorem still_throw (fault : Fault) : Still (throw fault : Arrange α) := ⟨nofun⟩

theorem still_look (read : Layout → α) : Still (fun layout => .ok (read layout) layout) := by
  refine ⟨?_⟩
  rintro layout _ _ ⟨⟩
  exact ⟨rfl, rfl⟩

theorem still_modify (kin : ∀ layout, (change layout).kin = layout.kin)
    (length : ∀ layout, (change layout).previous.length = layout.previous.length) :
    Still (modify change : Arrange Unit) := by
  refine ⟨?_⟩
  rintro layout _ _ ⟨⟩
  exact ⟨kin layout, length layout⟩

theorem still_modifyEntry (same : ∀ entry, (change entry).kin = entry.kin) :
    Still (modifyEntry index change) :=
  still_modify (fun _ => map_kin_modify_same same) fun _ => rfl

theorem still_climb (levels : Nat) (entry neighbour : Option Nat) (leftSum rightSum : Int) :
    Still (climb levels entry neighbour leftSum rightSum) := by
  have parents (index : Option Nat) : Still (parentOf index) := by
    cases index with
    | none => exact still_throw _
    | some index => exact still_look _
  have modifiers (index : Option Nat) : Still (modifierOf index) := by
    cases index with
    | none => exact still_throw _
    | some index => exact still_look _
  induction levels generalizing entry neighbour leftSum rightSum with
  | zero => exact still_look _
  | succ levels ih =>
    refine (parents entry).bind fun entry => ?_
    refine (parents neighbour).bind fun neighbour => ?_
    refine (modifiers entry).bind fun right => ?_
    refine (modifiers neighbour).bind fun left => ?_
    exact ih ..

theorem still_spread (portion distance : Int) (indices : List Nat) :
    Still (spread portion distance indices) := by
  induction indices generalizing distance with
  | nil => exact still_look _
  | cons index indices ih => exact .bind (still_modifyEntry fun _ => rfl) fun _ => ih _

theorem still_apportion (index fuel levels : Nat) (leftmost neighbour : Option Nat) :
    Still (apportion index fuel levels leftmost neighbour) := by
  induction fuel generalizing levels leftmost neighbour with
  | zero => exact still_throw _
  | succ fuel ih =>
    cases leftmost with
    | none => exact still_look _
    | some leftmost =>
      cases neighbour with
      | none => exact still_look _
      | some neighbour =>
        have descends : Still (descend index fuel levels leftmost) := by
          refine .bind (still_look _) fun layout => ?_
          split
          · exact still_look _
          · exact .bind (still_look _) fun _ => ih ..
        refine .bind (still_climb ..) fun found => .bind (still_look _) fun beside =>
          .bind (still_look _) fun first => .bind (still_look _) fun layout => ?_
        dsimp only
        split
        · refine .bind (still_look _) fun layout => ?_
          split
          · exact still_look _
          · exact still_throw _
          · exact .bind (still_spread ..) fun _ => descends
        · exact descends

theorem still_forM {each : Nat → Arrange Unit} (still : ∀ index, Still (each index))
    (indices : List Nat) : Still (indices.forM each) := by
  induction indices with
  | nil => exact still_look _
  | cons index indices ih => exact .bind (still index) fun _ => ih

theorem still_meet (index level : Nat) : Still (meet index level) := by
  refine .bind (still_look _) fun layout => ?_
  split
  · exact still_throw _
  · refine .bind (still_modify (fun _ => rfl) fun _ => length_set ..) fun _ => ?_
    refine .bind (still_modifyEntry fun _ => rfl) fun _ => ?_
    exact still_look _

theorem still_placeLeaf (index : Nat) (left : Option Nat) : Still (placeLeaf index left) := by
  cases left with
  | none => exact still_modifyEntry fun _ => rfl
  | some left => exact .bind (still_look _) fun prelim => still_modifyEntry fun _ => rfl

theorem still_placeAbove (index first last : Nat) (left : Option Nat) :
    Still (placeAbove index first last left) := by
  refine .bind (still_look _) fun first => ?_
  refine .bind (still_look _) fun last => ?_
  cases left with
  | none => exact still_modifyEntry fun _ => rfl
  | some left =>
    refine .bind (still_look _) fun prelim => ?_
    refine .bind (still_modifyEntry fun _ => rfl) fun _ => ?_
    exact .bind (still_look _) fun first => still_apportion ..

theorem still_firstWalk (fuel index level : Nat) : Still (firstWalk fuel index level) := by
  induction fuel generalizing index level with
  | zero => exact still_throw _
  | succ fuel ih =>
    refine .bind (still_meet index level) fun entry => ?_
    have widens : Still (modify fun layout : Layout =>
        { layout with widths := layout.widths.modify level (max entry.width) }) :=
      still_modify (fun _ => rfl) fun _ => rfl
    split
    · exact .bind (still_placeLeaf ..) fun _ => widens
    · refine .bind (still_look _) fun layout => ?_
      refine .bind (still_forM (ih · _) _) fun _ => ?_
      exact .bind (still_placeAbove ..) fun _ => widens

theorem exists_of_forM {each : Nat → Arrange Unit} (still : ∀ index, Still (each index))
    {indices : List Nat} (done : indices.forM each layout = .ok () after)
    (member : index ∈ indices) :
    ∃ early late, each index early = .ok () late ∧ early.kin = layout.kin ∧
      early.previous.length = layout.previous.length := by
  induction indices generalizing layout with
  | nil => cases member
  | cons first indices ih =>
    obtain ⟨_, middle, early, late⟩ := bind_eq_ok done
    rcases mem_cons.1 member with rfl | later
    · exact ⟨layout, middle, early, rfl, rfl⟩
    · obtain ⟨kin, length⟩ := (still first).keeps early
      obtain ⟨one, two, step, sameKin, sameLength⟩ := ih late later
      exact ⟨one, two, step, sameKin.trans kin, sameLength.trans length⟩

theorem lt_of_firstWalk (woven : Kin.Woven layout.kin [])
    (done : firstWalk fuel index level layout = .ok () after)
    (isAbove : above layout.kin deep place = some index) :
    level + deep < layout.previous.length := by
  induction fuel generalizing index level layout after deep with
  | zero => cases done
  | succ fuel ih =>
    have room : level < layout.previous.length := by
      by_contra beyond
      obtain ⟨_, _, met, _⟩ := bind_eq_ok done
      rw [meet, bind_get, getElem?_eq_none (Nat.not_lt.1 beyond)] at met
      cases met
    cases deep with
    | zero => exact room
    | succ deep =>
      rw [above_add] at isAbove
      obtain ⟨child, isBelow, isTop⟩ := bind_eq_some_iff.1 isAbove
      obtain ⟨_, isParent, ⟨⟩⟩ := bind_eq_some_iff.1 isTop
      obtain ⟨kin, found, isChild⟩ := bind_eq_some_iff.1 isParent
      obtain ⟨_, isOver, member⟩ := woven.member found isChild not_mem_nil
      obtain ⟨entry, isEntry, rfl⟩ := exists_entry isOver
      have children : (started layout index level).childrenOf index = entry.children := by
        rw [← kin_started layout index level] at woven
        have followed := childrenOf_eq_of_woven woven (getElem?_started isEntry)
        exact followed
      have listed : child ∈ entry.children := member
      rw [firstWalk_eq room isEntry] at done
      obtain ⟨_, _, walking, _⟩ := bind_eq_ok done
      cases isChildren : entry.children with
      | nil =>
        rw [isChildren] at listed
        cases listed
      | cons first others =>
        rw [isChildren] at walking
        dsimp only at walking
        rw [bind_get, children] at walking
        obtain ⟨_, _, below, _⟩ := bind_eq_ok walking
        obtain ⟨_, _, step, sameKin, sameLength⟩ :=
          exists_of_forM (still_firstWalk fuel · _) below listed
        rw [kin_started] at sameKin
        have deeper := ih (sameKin ▸ woven) step (sameKin ▸ isBelow)
        rw [sameLength, show (started layout index level).previous.length =
          _ from length_set ..] at deeper
        omega

end Depth

/--
Acyclic links are arranged exactly if there is room for all levels of their tree, whatever roots
there are, wherever they are to be.  There is if the chains of links up to the roots are short.
-/
theorem placeNodes_ok_iff_shallow (drawn : Drawn forest links) (roots : Roots) (spacing : Spacing) :
    ∃ grown, growRoots roots (Layout.new spacing links forest) = .ok 0 grown ∧
      (∀ cursor, (∃ answer after,
        placeNodes roots cursor (Layout.new spacing links forest) = .ok answer after) ↔
          ∀ {index level : Nat}, above grown.kin level index = some 0 → level < levelCount) ∧
      (Short links roots → ∀ cursor, ∃ answer after,
        placeNodes roots cursor (Layout.new spacing links forest) = .ok answer after) := by
  rcases growRoots_ok drawn roots spacing with ⟨grown, isGrown, framed, growing, rooted⟩
  have family := growing.family
  rcases family.exists_grove drawn.acyclic with ⟨below, stands, all⟩
  have arranges (levels : ∀ {index level : Nat}, above grown.kin level index = some 0 →
      level < levelCount) (cursor : Option Point) : ∃ answer after,
        placeNodes roots cursor (Layout.new spacing links forest) = .ok answer after := by
    rcases placeNodes_ok framed family stands all (few_of_levels stands levels) isGrown with
      ⟨_, _, _, _, places⟩
    obtain ⟨answer, after, done, _⟩ := places cursor
    exact ⟨answer, after, done⟩
  refine ⟨grown, isGrown, fun cursor => ⟨?_, (arranges · cursor)⟩, fun short =>
    arranges (family.level_lt short)⟩
  rintro ⟨answer, after, done⟩ index level isAbove
  rw [placeNodes, bind_of_ok isGrown, bind_modify, bind_get] at done
  obtain ⟨_, walked, walking, _⟩ := bind_eq_ok done
  have previous : grown.unvisited.previous = List.replicate levelCount none := by
    rw [framed.1]
    rfl
  have fits : 0 + level < grown.unvisited.previous.length :=
    lt_of_firstWalk (by exact family.woven) walking isAbove
  rwa [Nat.zero_add, previous, length_replicate] at fits

def row (count : Nat) : List Link := (List.range count).map fun index => linkTo index (index + 1) 0

theorem placeNodes_ok_triangle :
    Drawn (unlinked 3) triangle ∧ ∀ cursor, ∃ answer after, placeNodes (.single ⟨0, 2⟩) cursor
      (Layout.new ⟨10, 20, 30⟩ triangle (unlinked 3)) = .ok answer after := by
  obtain ⟨_, _, _, arranges⟩ := placeNodes_ok_iff_shallow drawn_triangle (.single ⟨0, 2⟩)
    ⟨10, 20, 30⟩
  exact ⟨drawn_triangle, arranges arrangeable_triangle.short⟩

/-- Nodes in a row are not arranged if there are more than there are levels. -/
theorem placeNodes_error_of_deep : ∃ after, placeNodes (.single ⟨0, 100⟩) none
    (Layout.new ⟨10, 20, 30⟩ (row 100) (unlinked 101)) = .error .listIndex after := by
  have fault : (match placeNodes (.single ⟨0, 100⟩) none
      (Layout.new ⟨10, 20, 30⟩ (row 100) (unlinked 101)) with
      | .error fault _ => some fault
      | .ok _ _ => none) = some .listIndex := by
    decide +kernel
  split at fault
  · rename_i after failed
    exact ⟨after, failed.trans (by rw [Option.some.inj fault])⟩
  · cases fault

/-! ## Columns -/

theorem Measured.x_lt_iff {origin}
    (measured : Measured forest links roots spacing grown below walked after origin)
    (wide : 0 < one.dimensions.x) (found : after.forest.node? ref = some one)
    (foundOther : after.forest.node? other = some two) (isAt : AtLevel after ref lower)
    (isAtOther : AtLevel after other upper) : one.location.x < two.location.x ↔ upper < lower := by
  constructor
  · intro left
    by_contra notBelow
    obtain ⟨_, _, _, location, _⟩ := measured.exists_spot found isAt
    obtain ⟨_, _, _, locationOther, _⟩ := measured.exists_spot foundOther isAtOther
    have columns := measured.column_le (Nat.not_lt.1 notBelow)
    rw [location, locationOther] at left
    simp only at left
    omega
  · intro deeper
    have nonneg := measured.level
    cases lower with
    | zero => cases deeper
    | succ lower =>
      have left := measured.left_of foundOther isAtOther found isAt wide (Nat.le_of_lt_succ deeper)
      omega

theorem Family.exists_feeds (family : Family forest links roots layout.kin [] [])
    (isAt : AtLevel layout source (level + 1)) (under : roots.levels ≤ level) :
    ∃ target, Feeds links source target ∧ AtLevel layout target level := by
  obtain ⟨_, isNode, isAbove⟩ := isAt
  obtain ⟨parent, isParent, further⟩ := bind_eq_some_iff.1 isAbove
  obtain ⟨target, isTarget⟩ : ∃ target, nodeOf? layout.kin parent = some target := by
    cases level with
    | succ level =>
      obtain ⟨_, isElder, _⟩ := bind_eq_some_iff.1 further
      exact family.exists_node_of_parent isElder
    | zero =>
      cases further
      obtain ⟨kin, isTop, _, isRoot⟩ := family.top
      cases roots with
      | single root => exact ⟨root, (nodeOf?_eq isTop).trans isRoot⟩
      | several nodes => cases under
  exact ⟨target, family.feeds_of_parent isParent isNode isTarget, parent, isTarget, further⟩

/--
Each node that leads to a root is on a level, and a node is to the left of another one exactly if it
is on a deeper level.  So is the node before each that is below a root, in a chain up to that root.
-/
theorem placeNodes_flow (fit : Arrangeable forest links roots)
    (wide : ∀ {ref : NodeRef} {node : Node}, forest.node? ref = some node → 0 < node.dimensions.x)
    (spacing : Spacing) (distance : 0 ≤ spacing.level) (cursor : Option Point) :
    ∃ answer after, placeNodes roots cursor (Layout.new spacing links forest) = .ok answer after ∧
      (∀ {ref : NodeRef}, Leads links roots ref → ∃ level, AtLevel after ref level) ∧
      (∀ {ref other : NodeRef} {one two : Node} {lower upper : Nat},
        after.forest.node? ref = some one → after.forest.node? other = some two →
        AtLevel after ref lower → AtLevel after other upper →
          (one.location.x < two.location.x ↔ upper < lower)) ∧
      (∀ {source : NodeRef} {level : Nat}, AtLevel after source (level + 1) → roots.levels ≤ level →
        ∃ target, Feeds links source target ∧ AtLevel after target level) := by
  rcases placeNodes_measured fit distance with ⟨_, _, _, _, _, _, places⟩
  obtain ⟨answer, after, done, measured, _⟩ := places cursor
  refine ⟨answer, after, done, measured.exists_level, ?_, ?_⟩
  · intro ref other one two lower upper found foundOther
    obtain ⟨original, isOriginal, same⟩ :=
      measured.arranged.exists_original measured.framed.2 found
    exact measured.x_lt_iff (same ▸ wide isOriginal) found foundOther
  · intro source level
    have family := measured.family
    rw [← measured.kin_eq.2] at family
    exact family.exists_feeds

theorem placeNodes_flow_triangle : ∃ answer after, placeNodes (.single ⟨0, 2⟩) none
        (Layout.new ⟨10, 20, 30⟩ triangle (unlinked 3)) = .ok answer after ∧
      ∃ level, AtLevel after ⟨0, 0⟩ level := by
  rcases placeNodes_flow arrangeable_triangle (fun found => (size_unlinked found).1) ⟨10, 20, 30⟩
    (by decide) none with ⟨answer, after, done, levels, _⟩
  exact ⟨answer, after, done, levels ⟨⟨0, 2⟩, List.mem_singleton.2 rfl,
    .single ⟨linkTo 0 2 0, by decide, rfl, rfl⟩⟩⟩

/-- The first node feeds the second one, which is moved deeper only after the first was placed. -/
def overtaking : List Link := [linkTo 2 3 0, linkTo 1 2 0, linkTo 1 3 1, linkTo 0 1 0, linkTo 0 2 1]

/-- A link may lead to a node that is no further to the right. -/
theorem placeNodes_link_not_rightward : ∃ answer after one two, placeNodes (.single ⟨0, 3⟩) none
        (Layout.new ⟨10, 20, 30⟩ overtaking (unlinked 4)) = .ok answer after ∧
      after.forest.node? ⟨0, 0⟩ = some one ∧ after.forest.node? ⟨0, 1⟩ = some two ∧
      Feeds overtaking ⟨0, 0⟩ ⟨0, 1⟩ ∧ ¬ one.location.x < two.location.x := by
  simp only [exists_and_left, Feeds]
  decide +kernel

end NodeFormula.Layout
