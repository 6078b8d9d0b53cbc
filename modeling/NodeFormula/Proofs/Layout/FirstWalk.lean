import NodeFormula.Proofs.Layout.Apportioning

/-!
# The first walk

Siblings are walked from left to right, each after all that is below it.  The walk comes to an end
if there are not too many levels, and then the siblings with all below them are apart on every
level.
-/

namespace NodeFormula.Layout

open List Grove

variable {entries : List LayoutEntry} {below : Grove} {layout : Layout}

def last? (layout : Layout) (level : Nat) : Option Nat := layout.previous[level]?.join

/-- Some siblings are walked after those to their left, which may have moved to make room. -/
structure Walked (before : Layout) (level : Nat) (lefts grove : Grove) (after : Layout) : Prop where
  frame : after = { before with
    entries := after.entries, previous := after.previous, widths := after.widths }
  kin : after.kin = before.kin
  others : ∀ index, index ∉ (lefts.append grove).indices →
    after.entries[index]? = before.entries[index]?
  earlier : ∀ early < level, after.last? early = before.last? early
  last : ∀ below, after.last? (level + below) =
    (grove.nodesAt below).getLast?.or (before.last? (level + below))
  lengths : after.previous.length = before.previous.length ∧
    after.widths.length = before.widths.length
  grows : ∀ {place : Nat} {width : Int}, before.widths[place]? = some width →
    ∃ wider, after.widths[place]? = some wider ∧ width ≤ wider
  wide : ∀ {below index : Nat}, index ∈ grove.nodesAt below →
    ∃ width, after.widths[level + below]? = some width ∧ (entryOf after.entries index).width ≤ width
  kept : ∀ {index : Nat}, index ∈ lefts.indices →
    (entryOf after.entries index).neighbour = (entryOf before.entries index).neighbour
  neighbours : ∀ {below first : Nat}, (grove.nodesAt below).head? = some first →
    (entryOf after.entries first).neighbour = before.last? (level + below)
  apart : ∀ gap, Roomy before gap → AllApart before.entries gap lefts →
    AllApart after.entries gap (lefts.append grove)

/--
The siblings to the left were walked, and the others are next.  On each level the last entry met is
the last one below the siblings to the left, or else an entry elsewhere on it.
-/
structure Context (layout : Layout) (level : Nat) (parent : Option Nat) (lefts rest : Grove) :
    Prop where
  woven : Kin.Woven layout.kin []
  stands : (lefts.append rest).Stands layout.kin parent none
  nodup : (lefts.append rest).indices.Nodup
  deep : ∀ top ∈ (lefts.append rest).tops, ∃ root, above layout.kin level top = some root
  few : ∀ {below : Nat}, (lefts.append rest).nodesAt below ≠ [] → level + below < levelCount
  previous : layout.previous.length = levelCount
  widths : layout.widths.length = levelCount
  nearest : ∀ {below last : Nat}, (lefts.nodesAt below).getLast? = some last →
    layout.last? (level + below) = some last
  outside : ∀ {below other : Nat}, lefts.nodesAt below = [] →
    layout.last? (level + below) = some other →
    other ∉ (lefts.append rest).indices ∧ ∃ root, above layout.kin (level + below) other = some root

section Walks

variable {after : Layout} {grove : Grove}

theorem height_of_kin (same : later.map LayoutEntry.kin = entries.map LayoutEntry.kin)
    (index : Nat) :
    (entryOf later index).height = (entryOf entries index).height ∧
      (entryOf later index).width = (entryOf entries index).width := by
  have here := congrArg (·[index]?) same
  simp only [getElem?_map] at here
  rw [entryOf, entryOf, getD_eq_getElem?_getD, getD_eq_getElem?_getD]
  cases isLater : later[index]? with
  | none =>
    rw [isLater] at here
    rw [Option.map_eq_none_iff.1 here.symm]
    exact ⟨rfl, rfl⟩
  | some entry =>
    rw [isLater] at here
    obtain ⟨_, isOld, sameKin⟩ := Option.map_eq_some_iff.1 here.symm
    rw [isOld]
    exact ⟨(congrArg Kin.height sameKin).symm, (congrArg Kin.width sameKin).symm⟩

theorem AllApart.congr (apart : AllApart entries gap grove)
    (same : later.map LayoutEntry.kin = entries.map LayoutEntry.kin)
    (still : ∀ index ∈ grove.indices, (entryOf later index).prelim =
      (entryOf entries index).prelim ∧
      (entryOf later index).modifier = (entryOf entries index).modifier) :
    AllApart later gap grove := by
  intro level
  rw [spots_congr still]
  refine (apart level).imp ?_
  intro first second
  rw [(height_of_kin same first.index).1]
  exact id

theorem Roomy.congr (roomy : Roomy before gap) (spacing : after.spacing = before.spacing)
    (same : after.kin = before.kin) : Roomy after gap := by
  refine ⟨roomy.gap_nonneg, spacing ▸ roomy.gap_le_sibling, spacing ▸ roomy.gap_le_subtree, ?_⟩
  intro index
  rw [(height_of_kin same index).1]
  exact roomy.tall index

theorem AllApart.tree (apart : AllApart entries gap below) (index : Nat) :
    AllApart entries gap (.tree index below) := by
  intro level
  cases level with
  | zero => exact pairwise_singleton ..
  | succ level =>
    rw [Grove.tree, Grove.spots, Grove.spots, append_nil, Apart, pairwise_map]
    refine (apart level).imp ?_
    intro first second gaps
    simp only [Spot.under]
    omega

namespace Walked

theorem refl (layout : Layout) (level : Nat) (lefts : Grove) :
    Walked layout level lefts .nil layout := by
  refine ⟨rfl, rfl, fun _ _ => rfl, fun _ _ => rfl, ?_, ⟨rfl, rfl⟩, ?_, ?_, fun _ => rfl, ?_, ?_⟩
  · intro below
    cases below <;> rfl
  · exact fun isWidth => ⟨_, isWidth, Int.le_refl _⟩
  · intro below index member
    cases below <;> cases member
  · intro below first isFirst
    cases below <;> cases isFirst
  · intro gap _ apart level
    rw [spots_append, spots, append_nil]
    exact apart level

theorem trans (early : Walked before level lefts grove middle)
    (late : Walked middle level (lefts.append grove) rest after) :
    Walked before level lefts (grove.append rest) after := by
  have kin := late.kin.trans early.kin
  have lengths := late.lengths
  rw [early.lengths.1, early.lengths.2] at lengths
  refine ⟨?_, kin, ?_, ?_, ?_, lengths, ?_, ?_, ?_, ?_, ?_⟩
  · rw [late.frame, early.frame]
  · intro index outside
    rw [← Grove.append_assoc] at outside
    refine (late.others index outside).trans (early.others index fun member => outside ?_)
    rw [indices_append]
    exact mem_append_left _ member
  · exact fun place before => (late.earlier place before).trans (early.earlier place before)
  · intro below
    rw [late.last, early.last, nodesAt_append, getLast?_append, Option.or_assoc]
  · intro place width isWidth
    obtain ⟨wider, isWider, le⟩ := early.grows isWidth
    obtain ⟨widest, isWidest, leWidest⟩ := late.grows isWider
    exact ⟨widest, isWidest, le.trans leWidest⟩
  · intro below index member
    rw [nodesAt_append, mem_append] at member
    rcases member with isEarly | isLate
    · obtain ⟨width, isWidth, fits⟩ := early.wide isEarly
      obtain ⟨wider, isWider, le⟩ := late.grows isWidth
      refine ⟨wider, isWider, ?_⟩
      rw [(height_of_kin late.kin index).2]
      exact fits.trans le
    · exact late.wide isLate
  · intro index member
    refine (late.kept ?_).trans (early.kept member)
    rw [indices_append]
    exact mem_append_left _ member
  · intro below first isFirst
    rw [nodesAt_append, head?_append] at isFirst
    cases isHead : (grove.nodesAt below).head? with
    | some head =>
      rw [isHead] at isFirst
      cases isFirst
      have member := mem_indices_of_mem_nodesAt (mem_of_head? isHead)
      refine (late.kept ?_).trans (early.neighbours isHead)
      rw [indices_append]
      exact mem_append_right _ member
    | none =>
      rw [isHead] at isFirst
      rw [late.neighbours isFirst, early.last, head?_eq_none_iff.1 isHead]
      rfl
  · intro gap roomy apart
    have roomyMiddle : Roomy middle gap := roomy.congr (by rw [early.frame]) early.kin
    rw [← Grove.append_assoc]
    exact late.apart gap roomyMiddle (early.apart gap roomy apart)

end Walked

/-! ## What is known before a sibling is walked -/

namespace Context

variable {deep : Nat}

theorem spot_above (stands : grove.Stands table parent none)
    (isTable : entries.map LayoutEntry.kin = table) (member : place ∈ grove.nodesAt deep) :
    ∃ top ∈ grove.tops, above table deep place = some top := by
  rw [← map_index_spots entries] at member
  obtain ⟨spot, isSpot, rfl⟩ := mem_map.1 member
  subst isTable
  exact ⟨spot.top, top_mem_tops isSpot, (stands.spot isSpot).1⟩

theorem not_mem_of_above (woven : Kin.Woven layout.kin [])
    (stands : grove.Stands layout.kin parent left) {levels top : Nat}
    (isAbove : above layout.kin levels place = some top) (outside : place ∉ grove.indices) :
    top ∉ grove.indices := by
  induction levels generalizing place with
  | zero =>
    cases isAbove
    exact outside
  | succ levels ih =>
    obtain ⟨_, isNext, further⟩ := above_succ isAbove
    refine ih further fun member => outside ?_
    obtain ⟨kin, found, isChild⟩ := Option.bind_eq_some_iff.1 isNext
    obtain ⟨_, isOver, isMember⟩ := woven.member found isChild nofun
    exact stands.mem_children member isOver isMember

/-- On each level below, the last entry met is not in the grove, and deep enough. -/
theorem last_above (context : Context layout level parent lefts rest)
    (isLast : layout.last? (level + deep) = some other) :
    other ∉ rest.indices ∧ ∃ root, above layout.kin (level + deep) other = some root := by
  have nodup := context.nodup
  rw [indices_append] at nodup
  cases isNearest : (lefts.nodesAt deep).getLast? with
  | none =>
    obtain ⟨notIn, root⟩ := context.outside (getLast?_eq_none_iff.1 isNearest) isLast
    rw [indices_append, mem_append, not_or] at notIn
    exact ⟨notIn.2, root⟩
  | some nearest =>
    cases (context.nearest isNearest).symm.trans isLast
    have member := mem_of_getLast? isNearest
    constructor
    · intro isRest
      exact (nodup_append.1 nodup).2.2 other (mem_indices_of_mem_nodesAt member) other
        isRest rfl
    · have memberBoth : other ∈ (lefts.append rest).nodesAt deep := by
        rw [nodesAt_append]
        exact mem_append_left _ member
      obtain ⟨top, isTop, isAbove⟩ := spot_above context.stands rfl memberBoth
      obtain ⟨root, isRoot⟩ := context.deep top isTop
      refine ⟨root, ?_⟩
      rw [Nat.add_comm, above_add, isAbove]
      exact isRoot

theorem walked {after : Layout}
    (context : Context layout level parent lefts (.cons index below rights))
    (walked : Walked layout level lefts (.tree index below) after) :
    Context after level parent (lefts.append (.tree index below)) rights := by
  have same : (lefts.append (.tree index below)).append rights =
      lefts.append (.cons index below rights) := append_assoc ..
  refine ⟨?_, ?_, ?_, ?_, ?_, walked.lengths.1.trans context.previous,
    walked.lengths.2.trans context.widths, ?_, ?_⟩
  · rw [walked.kin]
    exact context.woven
  · rw [walked.kin, same]
    exact context.stands
  · rw [same]
    exact context.nodup
  · rw [walked.kin, same]
    exact context.deep
  · rw [same]
    exact context.few
  · intro deep last isLast
    rw [nodesAt_append, getLast?_append] at isLast
    rw [walked.last]
    cases isTree : ((tree index below).nodesAt deep).getLast? with
    | some other => rwa [isTree] at isLast
    | none =>
      rw [isTree] at isLast
      exact context.nearest isLast
  · intro deep other isEmpty isLast
    rw [nodesAt_append, append_eq_nil_iff] at isEmpty
    rw [walked.last, isEmpty.2] at isLast
    rw [walked.kin, same]
    exact context.outside isEmpty.1 isLast

end Context

/-! ## Walking one sibling -/

def started (layout : Layout) (index level : Nat) : Layout :=
  { layout with
    previous := layout.previous.set level (some index)
    entries := layout.entries.modify index fun entry =>
      { entry with neighbour := layout.last? level, modifier := 0 } }

section Siblings

variable {inner : Layout}

theorem entryOf_modify_ne (other : place ≠ index) :
    (entries.modify index change)[place]? = entries[place]? :=
  getElem?_modify_ne _ _ (.symm other)

theorem entryOf_congr (same : later[place]? = entries[place]?) :
    entryOf later place = entryOf entries place := by
  rw [entryOf, entryOf, getD_eq_getElem?_getD, getD_eq_getElem?_getD, same]

theorem kin_started (layout : Layout) (index level : Nat) :
    (started layout index level).kin = layout.kin :=
  map_kin_modify_same fun _ => rfl

theorem getElem?_started (isEntry : layout.entries[index]? = some entry) :
    (started layout index level).entries[index]? =
      some { entry with neighbour := layout.last? level, modifier := 0 } := by
  show (layout.entries.modify index _)[index]? = _
  rw [getElem?_modify_eq, isEntry]
  rfl

theorem last?_started (room : level < layout.previous.length) (place : Nat) :
    (started layout index level).last? place =
      if place = level then some index else layout.last? place := by
  show ((layout.previous.set level (some index))[place]?).join = _
  by_cases here : place = level
  · subst here
    rw [if_pos rfl, getElem?_set_self room]
    rfl
  · rw [if_neg here, getElem?_set_ne (Ne.symm here)]
    rfl

namespace Context

variable (context : Context layout level parent lefts (.cons index below rights))
include context

theorem standsHere :
    (cons index below rights).Stands layout.kin parent lefts.tops.getLast? := by
  have stands := context.stands.append_right
  rwa [Option.or_none] at stands

theorem disjoint :
    index ∉ lefts.indices ∧ index ∉ below.indices ∧ below.indices.Nodup ∧
      ∀ place ∈ lefts.indices, place ∉ below.indices := by
  have nodup := context.nodup
  rw [indices_append] at nodup
  obtain ⟨_, nodupHere, apart⟩ := nodup_append.1 nodup
  obtain ⟨notIn, nodupOthers⟩ := nodup_cons.1 nodupHere
  rw [mem_append, not_or] at notIn
  refine ⟨?_, notIn.1, (nodup_append.1 nodupOthers).1, ?_⟩
  · exact fun member => apart index member index mem_cons_self rfl
  · exact fun place isLeft isBelow => apart place isLeft place
      (mem_cons_of_mem _ (mem_append_left _ isBelow)) rfl

theorem room : level < levelCount := by
  have met : (lefts.append (.cons index below rights)).nodesAt 0 ≠ [] := by
    simp [nodesAt]
  exact context.few met

theorem children : Context (started layout index level) (level + 1) (some index) .nil below := by
  have room : level < layout.previous.length := context.previous.symm ▸ context.room
  have stands := context.standsHere
  refine ⟨?_, ?_, context.disjoint.2.2.1, ?_, ?_, ?_, context.widths, ?_, ?_⟩
  · rw [kin_started]
    exact context.woven
  · rw [kin_started]
    exact stands.2.1
  · intro top isTop
    rw [kin_started]
    obtain ⟨_, found, isChild⟩ := stands.2.1.mem_tops isTop
    obtain ⟨root, isRoot⟩ := context.deep index (by rw [tops_append]; simp [tops])
    refine ⟨root, ?_⟩
    rw [above, found, Option.bind_some, isChild]
    exact isRoot
  · intro deep some
    have met : (lefts.append (.cons index below rights)).nodesAt (deep + 1) ≠ [] := by
      rw [nodesAt_append, nodesAt]
      simp only [ne_eq, append_eq_nil_iff, not_and]
      exact fun _ empty => absurd empty some
    have bound := context.few met
    omega
  · rw [← context.previous]
    exact length_set ..
  · intro deep last isLast
    cases deep <;> cases isLast
  · intro deep other _ isLast
    rw [last?_started room, if_neg (by omega), Nat.add_assoc] at isLast
    rw [kin_started, Nat.add_assoc]
    obtain ⟨outside, isAbove⟩ := context.last_above isLast
    refine ⟨fun member => outside ?_, isAbove⟩
    exact mem_cons_of_mem _ (mem_append_left _ member)

end Context

theorem Walked.of_inner (context : Context layout level parent lefts (.cons index below rights))
    (walked : Walked (started layout index level) (level + 1) .nil below inner)
    (sameKin : entries.map LayoutEntry.kin = inner.entries.map LayoutEntry.kin)
    (sameNeighbour : ∀ place,
      (entryOf entries place).neighbour = (entryOf inner.entries place).neighbour)
    (others : ∀ place, place ∉ lefts.tops ++ [index] → entries[place]? = inner.entries[place]?)
    (apart : ∀ gap, Roomy layout gap → AllApart layout.entries gap lefts →
      AllApart entries gap (lefts.append (.tree index below))) :
    Walked layout level lefts (.tree index below) { inner with
      entries := entries
      widths := inner.widths.modify level (max (entryOf inner.entries index).width) } := by
  have room : level < layout.previous.length := context.previous.symm ▸ context.room
  have kin : inner.kin = layout.kin := walked.kin.trans (kin_started ..)
  obtain ⟨notLeft, notBelow, _, apartBelow⟩ := context.disjoint
  have unwalked {place : Nat} (notHere : place ≠ index) (outside : place ∉ below.indices) :
      inner.entries[place]? = layout.entries[place]? :=
    (walked.others place outside).trans (entryOf_modify_ne notHere)
  have widthsLength : inner.widths.length = levelCount := walked.lengths.2.trans context.widths
  refine ⟨?_, sameKin.trans kin, ?_, ?_, ?_, ⟨?_, ?_⟩, ?_, ?_, ?_, ?_, apart⟩
  · rw [walked.frame]
    rfl
  · intro place outside
    rw [indices_append, mem_append, not_or] at outside
    have outsideTree := outside.2
    rw [tree, indices, indices, append_nil, mem_cons, not_or] at outsideTree
    obtain ⟨notHere, notInside⟩ := outsideTree
    refine (others place ?_).trans (unwalked notHere notInside)
    rw [mem_append, not_or, mem_singleton]
    exact ⟨fun isTop => outside.1 (mem_indices_of_mem_tops isTop), notHere⟩
  · intro early isEarly
    show inner.last? early = _
    rw [walked.earlier early (by omega), last?_started room, if_neg (by omega)]
  · intro deep
    show inner.last? (level + deep) = _
    cases deep with
    | zero =>
      rw [Nat.add_zero, walked.earlier level (Nat.lt_succ_self _), last?_started room, if_pos rfl]
      rfl
    | succ deep =>
      have here := walked.last deep
      rw [last?_started room, if_neg (by omega), Nat.add_assoc, Nat.add_comm 1] at here
      rw [here, tree, nodesAt, nodesAt, append_nil]
  · exact walked.lengths.1.trans (length_set ..)
  · exact (length_modify ..).trans walked.lengths.2
  · intro place width isWidth
    obtain ⟨_, isWider, le⟩ := walked.grows isWidth
    rw [getElem?_modify, isWider]
    refine ⟨_, rfl, le.trans ?_⟩
    split
    · exact Int.le_max_right ..
    · exact Int.le_refl _
  · intro deep place member
    rw [(height_of_kin sameKin place).2]
    cases deep with
    | zero =>
      cases mem_singleton.1 member
      have isWidth := getElem?_eq_getElem (show level < inner.widths.length from
        widthsLength.symm ▸ context.room)
      rw [Nat.add_zero, getElem?_modify_eq, isWidth]
      exact ⟨_, rfl, Int.le_max_left ..⟩
    | succ deep =>
      rw [tree, nodesAt, nodesAt, append_nil] at member
      obtain ⟨width, isWidth, fits⟩ := walked.wide member
      rw [Nat.add_assoc, Nat.add_comm 1] at isWidth
      refine ⟨width, ?_, fits⟩
      rw [getElem?_modify_ne _ _ (by omega), isWidth]
  · intro place member
    have notHere : place ≠ index := fun same => notLeft (same ▸ member)
    rw [sameNeighbour, entryOf_congr (unwalked notHere (apartBelow place member))]
  · intro deep first isFirst
    rw [sameNeighbour]
    cases deep with
    | zero =>
      cases isFirst
      obtain ⟨⟨kin, found, _⟩, _⟩ := context.standsHere
      obtain ⟨_, isEntry, _⟩ := exists_entry found
      rw [entryOf_eq ((walked.others index notBelow).trans (getElem?_started isEntry))]
      rfl
    | succ deep =>
      rw [tree, nodesAt, nodesAt, append_nil] at isFirst
      rw [walked.neighbours isFirst, last?_started room, if_neg (by omega), Nat.add_assoc,
        Nat.add_comm 1]

/-! ## Placing the sibling -/

/-- Changes of an entry that only place it. -/
def Places (change : LayoutEntry → LayoutEntry) : Prop :=
  ∀ entry, (change entry).kin = entry.kin ∧ (change entry).neighbour = entry.neighbour

section Placing

theorem neighbour_modify (places : Places change) (entries : List LayoutEntry) (index place : Nat) :
    (entryOf (entries.modify index change) place).neighbour =
      (entryOf entries place).neighbour := by
  by_cases here : place = index
  · subst here
    rw [entryOf, entryOf, getD_eq_getElem?_getD, getD_eq_getElem?_getD,
      getElem?_modify_eq]
    cases entries[place]? with
    | none => rfl
    | some entry => exact (places entry).2
  · rw [entryOf_congr (entryOf_modify_ne here)]

theorem AllApart.modify (apart : AllApart entries gap grove) (places : Places change)
    (outside : index ∉ grove.indices) : AllApart (entries.modify index change) gap grove := by
  refine apart.congr (map_kin_modify_same fun entry => (places entry).1) fun place member => ?_
  have other : place ≠ index := fun same => outside (same ▸ member)
  rw [entryOf_congr (entryOf_modify_ne other)]
  exact ⟨rfl, rfl⟩

variable (context : Context layout level parent lefts (.cons index below rights))
  (walked : Walked (started layout index level) (level + 1) .nil below inner)
  (places : Places change)
include context walked places

theorem Walked.inner_apart (roomy : Roomy layout gap)
    (apart : AllApart layout.entries gap lefts) :
    AllApart (inner.entries.modify index change) gap lefts ∧
      AllApart (inner.entries.modify index change) gap (.tree index below) := by
  obtain ⟨notLeft, notBelow, _, apartBelow⟩ := context.disjoint
  constructor
  · refine AllApart.modify (apart.congr (walked.kin.trans (kin_started ..)) ?_) places notLeft
    intro place member
    have notHere : place ≠ index := fun same => notLeft (same ▸ member)
    have same := (walked.others place (apartBelow place member)).trans (entryOf_modify_ne notHere)
    rw [entryOf_congr same]
    exact ⟨rfl, rfl⟩
  · refine (AllApart.modify
      (walked.apart gap (roomy.congr rfl (kin_started ..)) ?_) places notBelow).tree index
    intro level
    cases level <;> exact .nil

theorem Walked.of_first (isFirst : lefts.tops.getLast? = none) :
    Walked layout level lefts (.tree index below) { inner with
      entries := inner.entries.modify index change
      widths := inner.widths.modify level (max (entryOf inner.entries index).width) } := by
  have empty : lefts = .nil := by
    cases lefts with
    | nil => rfl
    | cons first inner rest => simp [tops] at isFirst
  subst empty
  refine .of_inner context walked (map_kin_modify_same fun entry => (places entry).1)
    (neighbour_modify places inner.entries index) ?_ ?_
  · intro place outside
    exact entryOf_modify_ne fun same => outside (by simp [same])
  · intro gap roomy apart
    exact (walked.inner_apart context places roomy apart).2

theorem Walked.of_settles (isLeft : lefts.tops.getLast? = some left)
    (follows : ∀ entry, (change entry).prelim = (entryOf inner.entries left).prelim +
      inner.spacing.sibling + (entryOf inner.entries left).height)
    (settles : Settles lefts index below 1
      { inner with entries := inner.entries.modify index change } result) :
    ∃ entries, result = .ok () { inner with entries := entries } ∧
      Walked layout level lefts (.tree index below) { inner with
        entries := entries
        widths := inner.widths.modify level (max (entryOf inner.entries index).width) } := by
  obtain ⟨move, still, isResult, apart⟩ := settles
  have kin : (inner.entries.modify index change).map LayoutEntry.kin =
      inner.entries.map LayoutEntry.kin := map_kin_modify_same fun entry => (places entry).1
  refine ⟨_, isResult, .of_inner context walked ((map_kin_shifted ..).trans kin) ?_ ?_ ?_⟩
  · intro place
    obtain ⟨_, same⟩ := exists_entryOf_shifted (inner.entries.modify index change) move place
    rw [same, ← neighbour_modify places inner.entries index]
    rfl
  · intro place outside
    rw [getElem?_shifted, still place outside, entryOf_modify_ne fun same =>
      outside (by simp [same])]
    simp
  · intro gap roomy apartLefts
    have spacing : inner.spacing = layout.spacing := by
      rw [walked.frame]
      rfl
    obtain ⟨apartLeftsNow, apartTree⟩ := walked.inner_apart context places roomy apartLefts
    have roomyNow : Roomy { inner with entries := inner.entries.modify index change } gap :=
      roomy.congr spacing (kin.trans (walked.kin.trans (kin_started ..)))
    refine apart gap roomyNow apartLeftsNow apartTree fun early isEarly => ?_
    cases Nat.lt_one_iff.1 isEarly
    rw [spots_append]
    refine (apartLeftsNow 0).append (apartTree 0) roomy.gap_nonneg
      (fun spot _ => roomyNow.tall _) ?_
    intro last isLast next isNext
    rw [spots_zero, getLast?_map, isLeft] at isLast
    cases isLast
    cases isNext
    have other : left ≠ index := by
      rintro rfl
      exact context.disjoint.1 (mem_indices_of_mem_tops (mem_of_getLast? isLeft))
    obtain ⟨⟨_, found, _⟩, _⟩ := context.standsHere
    rw [← kin_started layout index level, ← walked.kin] at found
    obtain ⟨entry, isEntry, _⟩ := exists_entry found
    have placed : (inner.entries.modify index change)[index]? = some (change entry) := by
      rw [getElem?_modify_eq, isEntry]
      rfl
    have allowed : gap ≤ inner.spacing.sibling := roomyNow.gap_le_sibling
    show (entryOf (inner.entries.modify index change) left).prelim +
      (entryOf (inner.entries.modify index change) left).height + gap ≤
        (entryOf (inner.entries.modify index change) index).prelim
    rw [entryOf_congr (entryOf_modify_ne other), entryOf_eq placed, follows]
    omega

theorem Context.meeting :
    Meeting { inner with entries := inner.entries.modify index change } lefts index below
      rights parent fun deep => layout.last? (level + deep) := by
  have room : level < layout.previous.length := context.previous.symm ▸ context.room
  have kin : kin { inner with entries := inner.entries.modify index change } = layout.kin :=
    (map_kin_modify_same fun entry => (places entry).1).trans (walked.kin.trans (kin_started ..))
  have same : (lefts.append (.tree index below)).append rights =
      lefts.append (.cons index below rights) := append_assoc ..
  refine ⟨?_, ?_, ?_, context.nearest, ?_⟩
  · rw [kin, same]
    exact context.stands
  · rw [same]
    exact context.nodup
  · intro deep first isFirst
    rw [neighbour_modify places, walked.neighbours isFirst, last?_started room, if_neg (by omega),
      Nat.add_assoc, Nat.add_comm 1]
  · intro deep other empty isLast
    obtain ⟨outside, _, isRoot⟩ := context.outside empty isLast
    rw [Nat.add_comm, above_add] at isRoot
    obtain ⟨top, isTop, _⟩ := Option.bind_eq_some_iff.1 isRoot
    rw [kin]
    refine ⟨top, isTop, fun member => ?_⟩
    refine not_mem_of_above context.woven context.stands isTop outside
      (mem_indices_of_mem_tops ?_)
    rw [tops_append]
    rcases mem_append.1 member with isLeft | isHere
    · exact mem_append_left _ isLeft
    · cases mem_singleton.1 isHere
      exact mem_append_right _ mem_cons_self

end Placing

/-! ## The whole walk -/

theorem meet_of_room (room : level < layout.previous.length)
    (isEntry : layout.entries[index]? = some entry) :
    meet index level layout =
      .ok { entry with neighbour := layout.last? level, modifier := 0 }
        (started layout index level) := by
  have isLast : layout.previous[level]? = some (layout.last? level) := by
    rw [last?, getElem?_eq_getElem room]
    rfl
  rw [meet, bind_get, isLast]
  exact entryAt_of_some (getElem?_started isEntry)

theorem firstWalk_eq (room : level < layout.previous.length)
    (isEntry : layout.entries[index]? = some entry) :
    firstWalk (fuel + 1) index level layout =
      ((match entry.children with
        | [] => placeLeaf index entry.left
        | first :: _ => do
          let children := (← get).childrenOf index
          children.forM fun child => firstWalk fuel child (level + 1)
          placeAbove index first (children.getLast?.getD first) entry.left) >>= fun _ =>
        modify fun layout : Layout =>
          { layout with widths := layout.widths.modify level (max entry.width) })
        (started layout index level) := by
  rw [firstWalk, bind_of_ok (meet_of_room room isEntry)]
  cases entry.children with
  | nil => rfl
  | cons first others => simp only [bind_assoc]

theorem walkAll_ok (context : Context layout level parent lefts rest)
    (each : ∀ {layout lefts index below rights},
      Context layout level parent lefts (.cons index below rights) →
      ∃ after, firstWalk fuel index level layout = .ok () after ∧
        Walked layout level lefts (.tree index below) after) :
    ∃ after, rest.tops.forM (fun child => firstWalk fuel child level) layout = .ok () after ∧
      Walked layout level lefts rest after := by
  induction rest generalizing layout lefts with
  | nil => exact ⟨layout, rfl, .refl layout level lefts⟩
  | cons index below rights _ ih =>
    obtain ⟨_, done, walked⟩ := each context
    obtain ⟨after, finished, walkedRest⟩ := ih (context.walked walked)
    exact ⟨after, (bind_of_ok done).trans finished, walked.trans walkedRest⟩

theorem placeLeaf_ok (context : Context layout level parent lefts (.cons index .nil rights)) :
    ∃ entries, placeLeaf index lefts.tops.getLast? (started layout index level) =
        .ok () { started layout index level with entries := entries } ∧
      Walked layout level lefts (.tree index .nil) { started layout index level with
        entries := entries
        widths := (started layout index level).widths.modify level
          (max (entryOf (started layout index level).entries index).width) } := by
  have walked := Walked.refl (started layout index level) (level + 1) .nil
  cases isLeft : lefts.tops.getLast? with
  | none => exact ⟨_, rfl, .of_first context walked (fun _ => ⟨rfl, rfl⟩) isLeft⟩
  | some left =>
    let change (entry : LayoutEntry) : LayoutEntry := { entry with
      prelim := (entryOf (started layout index level).entries left).prelim +
        layout.spacing.sibling + (entryOf (started layout index level).entries left).height }
    have places : Places change := fun _ => ⟨rfl, rfl⟩
    have empty : nil.nodesAt 0 = [] := rfl
    rcases Walked.of_settles context walked places isLeft (fun _ => rfl)
      (.of_empty_below empty) with ⟨entries, same, walkedTree⟩
    exact ⟨entries, same, walkedTree⟩

/-- The first entry below another one is no lower than that. -/
def Leading (before : Layout) (index : Nat) (below : Grove) (after : Layout) : Prop :=
  ∀ {gap : Int} {first : Nat}, Roomy before gap → below.tops.head? = some first →
    (entryOf after.entries first).prelim + (entryOf after.entries index).modifier ≤
      (entryOf after.entries index).prelim

theorem Walked.leading (context : Context layout level parent .nil (.cons index below rights))
    (walked : Walked (started layout index level) (level + 1) .nil below inner)
    (isFirst : below.tops.head? = some first) {widths : List Int} :
    Leading layout index below { inner with
      widths := widths
      entries := inner.entries.modify index fun entry => { entry with
        prelim := ((entryOf inner.entries first).prelim +
          (entryOf inner.entries (below.tops.getLast?.getD first)).prelim).fdiv 2 } } := by
  intro gap other roomy isOther
  cases isFirst.symm.trans isOther
  have notBelow := context.disjoint.2.1
  have notHere : first ≠ index :=
    fun same => notBelow (same ▸ mem_indices_of_mem_tops (mem_of_head? isFirst))
  obtain ⟨⟨_, found, _⟩, _⟩ := context.standsHere
  obtain ⟨entry, isEntry, _⟩ := exists_entry found
  have met := (walked.others index notBelow).trans (getElem?_started isEntry)
  have roomyStarted : Roomy (started layout index level) gap := roomy.congr rfl (kin_started ..)
  have roomyInner : Roomy inner gap := roomyStarted.congr (by rw [walked.frame]) walked.kin
  obtain ⟨others, isTops⟩ := head?_eq_some_iff.1 isFirst
  have apart : Apart inner.entries gap (below.spots inner.entries 0) :=
    walked.apart gap roomyStarted (fun level => by cases level <;> exact .nil) 0
  rw [spots_zero, isTops] at apart
  have ordered : (entryOf inner.entries first).prelim ≤
      (entryOf inner.entries (below.tops.getLast?.getD first)).prelim := by
    rw [isTops, getLast?_cons, Option.getD_some]
    rcases mem_cons.1 (mem_of_getLast? (getLast?_cons (a := first) (l := others))) with same | later
    · rw [same]
    · have gaps := (pairwise_cons.1 (pairwise_map.1 apart)).1 _ later
      have tall := roomyInner.tall first
      have nonneg := roomy.gap_nonneg
      simp only at gaps
      omega
  have placed (change : LayoutEntry → LayoutEntry) :
      entryOf (inner.entries.modify index change) index = _ := entryOf_eq (by
    rw [getElem?_modify_eq, met]
    rfl)
  rw [placed, entryOf_congr (entryOf_modify_ne notHere), Int.fdiv_eq_ediv_of_nonneg _ (by decide)]
  dsimp only
  omega

theorem placeAbove_ok (context : Context layout level parent lefts (.cons index below rights))
    (walked : Walked (started layout index level) (level + 1) .nil below inner)
    (isFirst : below.tops.head? = some first) :
    ∃ entries, placeAbove index first (below.tops.getLast?.getD first) lefts.tops.getLast? inner =
        .ok () { inner with entries := entries } ∧
      Walked layout level lefts (.tree index below) { inner with
        entries := entries
        widths := inner.widths.modify level (max (entryOf inner.entries index).width) } ∧
      (lefts = .nil → ∀ widths, Leading layout index below { inner with
        entries := entries, widths := widths }) := by
  let last := below.tops.getLast?.getD first
  cases isLeft : lefts.tops.getLast? with
  | none =>
    refine ⟨_, rfl, .of_first context walked (fun _ => ⟨rfl, rfl⟩) isLeft, ?_⟩
    rintro rfl widths
    exact walked.leading context isFirst
  | some left =>
    let middle :=
      ((entryOf inner.entries first).prelim + (entryOf inner.entries last).prelim).fdiv 2
    let prelim := (entryOf inner.entries left).prelim + inner.spacing.sibling +
      (entryOf inner.entries left).height
    let change (entry : LayoutEntry) : LayoutEntry :=
      { entry with prelim := prelim, modifier := prelim - middle }
    have places : Places change := fun _ => ⟨rfl, rfl⟩
    have meeting := context.meeting walked places
    have isFirstNode : (below.nodesAt 0).head? = some first := by
      rw [nodesAt_zero]
      exact isFirst
    have enough {deep : Nat} (met : below.nodesAt deep ≠ []) : deep < 0 + (levelCount + 2) := by
      have bound := context.children.few met
      omega
    have settles := apportion_ok (levelCount + 2) meeting isFirstNode enough
    rw [← meeting.neighbour isFirstNode] at settles
    obtain ⟨entries, done, walkedTree⟩ :=
      Walked.of_settles context walked places isLeft (fun _ => rfl) settles
    refine ⟨entries, done, walkedTree, ?_⟩
    rintro rfl
    cases isLeft

/-- The first walk comes to an end if there are not too many levels, with all apart. -/
theorem firstWalk_ok (fuel : Nat)
    (context : Context layout level parent lefts (.cons index below rights))
    (enough : levelCount < level + fuel) :
    ∃ after, firstWalk fuel index level layout = .ok () after ∧
      Walked layout level lefts (.tree index below) after ∧
      (lefts = .nil → Leading layout index below after) := by
  induction fuel generalizing layout level parent lefts index below rights with
  | zero => exact absurd context.room (Nat.not_lt.2 (Nat.le_of_lt enough))
  | succ fuel ih =>
    have room : level < layout.previous.length := context.previous.symm ▸ context.room
    obtain ⟨⟨kin, found, _, isLeft, _, isBelow⟩, _⟩ := context.standsHere
    obtain ⟨entry, isEntry, rfl⟩ := exists_entry found
    have leftOf : entry.left = lefts.tops.getLast? := isLeft
    have children : entry.children = below.tops := isBelow
    have width {later : Layout} (same : later.kin = layout.kin) :
        (entryOf later.entries index).width = entry.width := by
      rw [(height_of_kin same index).2, entryOf_eq isEntry]
    rw [firstWalk_eq room isEntry, children, leftOf]
    cases below with
    | nil =>
      obtain ⟨entries, done, walked⟩ := placeLeaf_ok context
      rw [width (kin_started layout index level)] at walked
      exact ⟨_, bind_of_ok done, walked, fun _ _ _ _ => nofun⟩
    | cons first inner others =>
      have nodup := context.nodup
      rw [indices_append] at nodup
      have stands := context.standsHere
      rw [← kin_started layout index level] at stands
      have isChildren := childrenOf_eq stands (nodup_append.1 nodup).2.1
      obtain ⟨between, walkedAll, walkedBelow⟩ :=
        walkAll_ok context.children fun contextBelow =>
          (ih contextBelow (by omega)).imp fun _ facts => ⟨facts.1, facts.2.1⟩
      obtain ⟨entries, done, walked, leading⟩ := placeAbove_ok context walkedBelow rfl
      rw [width (walkedBelow.kin.trans (kin_started ..))] at walked
      refine ⟨_, ?_, walked, fun isNil => leading isNil _⟩
      have whole : (do
          let children := (started layout index level).childrenOf index
          children.forM fun child => firstWalk fuel child (level + 1)
          placeAbove index first (children.getLast?.getD first) lefts.tops.getLast?)
          (started layout index level) = .ok () { between with entries := entries } := by
        rw [isChildren]
        exact (bind_of_ok walkedAll).trans done
      exact bind_of_ok whole

end Siblings

end Walks

end NodeFormula.Layout
