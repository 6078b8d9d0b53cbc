import NodeFormula.Proofs.Compiling
import NodeFormula.Proofs.Scoping
import NodeFormula.Proofs.Unfolding

/-!
# What formulas mean

The meaning of a typed expression is a constant, or the terms that its sockets are to unfold to,
with every variable replaced by what it is bound to.  A name that was never assigned stands for an
input node of its type, and so does a constant that is assigned, with its value.

The tree that is built shows these meanings but for one loss: an input node that is to hold zero
in its output is left unset.  What the tree shows is the *faded* meaning.
-/

namespace NodeFormula

/-! ## Meanings -/

/-- What an expression stands for. -/
inductive Meaning
  | nothing
  | constant (value : Value)
  | socket (term : Term)
  | struct (first : Term) (others : List Term)

namespace Value

def feed : Value → Feed
  | .blank => .untouched
  | value => .constant value

end Value

namespace Meaning

def stack : Meaning → StackType
  | .nothing => .empty
  | .constant _ => .value
  | .socket _ => .socket
  | .struct _ _ => .struct

def feed : Meaning → Feed
  | .nothing => .untouched
  | .constant value => value.feed
  | .socket term => .linked term
  | .struct first _ => .linked first

end Meaning

namespace NodeRecipe

def term (recipe : NodeRecipe) (feeds : List Feed) (index : Nat) : Term :=
  .output recipe.key recipe.props (recipe.feedAt feeds) none index

def meaning (recipe : NodeRecipe) (feeds : List Feed) : Meaning :=
  match recipe.outputs with
  | [] => .nothing
  | [index] => .socket (recipe.term feeds index)
  | first :: others => .struct (recipe.term feeds first) (others.map (recipe.term feeds))

end NodeRecipe

def InputNode.term (node : InputNode) : Term :=
  .output node.recipe.key node.recipe.props
    (node.recipe.feedAt (node.args.map fun arg => (arg.map Value.feed).getD .untouched))
    node.held 0

def TreeKind.inputMeaning (kind : TreeKind) (value : Option Value) (type : DataType) : Meaning :=
  match kind.inputNode? value type with
  | some node => .socket node.term
  | none => .nothing

mutual

/--
The meaning of an expression and the variables afterwards.  Functions of the user and reads of an
output mean nothing here.
-/
def TypedExpr.meaning (kind : TreeKind) (bound : List (String × Meaning)) :
    TypedExpr → List (String × Meaning) × Meaning
  | .const _ value => (bound, .constant value)
  | .var reference =>
    if reference.isFresh then
      let input := kind.inputMeaning none reference.info.firstType
      (Table.insert reference.id input bound, input)
    else (bound, (bound.lookup reference.id).getD .nothing)
  | .nodeCall _ recipe args =>
    let (bound, feeds) := TypedExpr.feeds kind bound args
    (bound, recipe.meaning feeds)
  | .functionCall _ _ _ => (bound, .nothing)
  | .output _ _ _ => (bound, .nothing)

def TypedExpr.feeds (kind : TreeKind) (bound : List (String × Meaning)) :
    List TypedExpr → List (String × Meaning) × List Feed
  | [] => (bound, [])
  | arg :: args =>
    let (bound, meaning) := arg.meaning kind bound
    let (bound, feeds) := TypedExpr.feeds kind bound args
    (bound, meaning.feed :: feeds)

end

namespace TypedStmt

/-- The meaning of the value of an assignment: a constant becomes an input node. -/
def assignedMeaning (kind : TreeKind) (bound : List (String × Meaning)) :
    TypedExpr → List (String × Meaning) × Meaning
  | .const info value => (bound, kind.inputMeaning (some value) info.firstType)
  | value => value.meaning kind bound

def meaning (kind : TreeKind) (bound : List (String × Meaning)) :
    TypedStmt → List (String × Meaning) × Meaning
  | .expr value => value.meaning kind bound
  | .assign [some target] value =>
    let (bound, meaning) := assignedMeaning kind bound value
    (Table.insert target.id meaning bound, meaning)
  | _ => (bound, .nothing)

def boundAfter (kind : TreeKind) (bound : List (String × Meaning)) :
    List TypedStmt → List (String × Meaning)
  | [] => bound
  | stmt :: stmts => boundAfter kind (stmt.meaning kind bound).1 stmts

end TypedStmt

/-! ## Fading -/

mutual

/-- The term without the zeros that outputs are to hold. -/
def Term.faded : Term → Term
  | .output key props inputs held index =>
    .output key props (fun input => (inputs input).faded) (held.filter (·.isNonzero)) index

def Feed.faded : Feed → Feed
  | .untouched => .untouched
  | .constant value => .constant value
  | .linked source => .linked source.faded

end

mutual

/-- No output that the term depends on is to hold zero. -/
def Term.HoldsNoZero : Term → Prop
  | .output _ _ inputs held _ =>
    (∀ value, held = some value → value.isNonzero = true) ∧
      ∀ input, (inputs input).HoldsNoZero

def Feed.HoldsNoZero : Feed → Prop
  | .untouched => True
  | .constant _ => True
  | .linked source => source.HoldsNoZero

end

mutual

theorem Term.faded_eq_iff : ∀ {term : Term}, term.faded = term ↔ term.HoldsNoZero
  | .output _ _ inputs held _ => by
    have heldSame : held.filter (·.isNonzero) = held ↔
        ∀ value, held = some value → value.isNonzero = true := by
      cases held with
      | none => simp
      | some value => by_cases nonzero : value.isNonzero <;> simp [nonzero]
    have inputsSame : (fun input => (inputs input).faded) = inputs ↔
        ∀ input, (inputs input).HoldsNoZero := by
      rw [funext_iff]
      constructor
      · intro same input
        exact Feed.faded_eq_iff.mp (same input)
      · intro holds input
        exact Feed.faded_eq_iff.mpr (holds input)
    rw [Term.faded, Term.output.injEq, heldSame, inputsSame]
    constructor
    · rintro ⟨_, _, inputs, held, _⟩
      exact ⟨held, inputs⟩
    · rintro ⟨held, inputs⟩
      exact ⟨rfl, rfl, inputs, held, rfl⟩

theorem Feed.faded_eq_iff : ∀ {feed : Feed}, feed.faded = feed ↔ feed.HoldsNoZero
  | .untouched => by simp [Feed.faded, Feed.HoldsNoZero]
  | .constant _ => by simp [Feed.faded, Feed.HoldsNoZero]
  | .linked _ => by
    rw [Feed.faded, Feed.linked.injEq]
    exact Term.faded_eq_iff

end

namespace Meaning

variable {meaning : Meaning}

def faded : Meaning → Meaning
  | .nothing => .nothing
  | .constant value => .constant value
  | .socket term => .socket term.faded
  | .struct first others => .struct first.faded (others.map Term.faded)

def HoldsNoZero : Meaning → Prop
  | .nothing => True
  | .constant _ => True
  | .socket term => term.HoldsNoZero
  | .struct first others => first.HoldsNoZero ∧ ∀ term ∈ others, term.HoldsNoZero

theorem faded_eq_iff (meaning : Meaning) : meaning.faded = meaning ↔ meaning.HoldsNoZero := by
  cases meaning with
  | nothing => simp [faded, HoldsNoZero]
  | constant => simp [faded, HoldsNoZero]
  | socket =>
    rw [faded, Meaning.socket.injEq]
    exact Term.faded_eq_iff
  | struct _ others =>
    have othersSame : others.map Term.faded = others ↔ ∀ term ∈ others, term.HoldsNoZero := by
      nth_rewrite 2 [← List.map_id others]
      rw [List.map_inj_left]
      constructor
      · intro same term member
        exact Term.faded_eq_iff.mp (same term member)
      · intro holds term member
        exact Term.faded_eq_iff.mpr (holds term member)
    rw [faded, HoldsNoZero, Meaning.struct.injEq, othersSame, Term.faded_eq_iff]

@[simp]
theorem stack_faded (meaning : Meaning) : meaning.faded.stack = meaning.stack := by
  cases meaning <;> rfl

theorem feed_faded (meaning : Meaning) : meaning.faded.feed = meaning.feed.faded := by
  cases meaning with
  | constant value => cases value <;> rfl
  | _ => rfl

/-- The items on the stack unfold to the meaning. -/
def ShownBy (forest : Forest) : Meaning → List Item → Prop
  | .nothing, items => items = []
  | .constant value, items => items = [.value value]
  | .socket term, items => ∃ socket, items = [.socket socket] ∧ term.ShownAt forest socket
  | .struct first others, items => ∃ sockets, items = [.struct sockets] ∧
      List.Forall₂ (Term.ShownAt forest) (first :: others) sockets.reverse

theorem ShownBy.keeps (kept : before.Keeps after) (shown : meaning.ShownBy before items) :
    meaning.ShownBy after items := by
  cases meaning with
  | nothing => exact shown
  | constant => exact shown
  | socket =>
    obtain ⟨socket, same, termShown⟩ := shown
    exact ⟨socket, same, termShown.keeps kept⟩
  | struct =>
    obtain ⟨sockets, same, termsShown⟩ := shown
    exact ⟨sockets, same, termsShown.imp fun _ _ termShown => termShown.keeps kept⟩

theorem eq_of_forall₂_shownAt (leftShown : List.Forall₂ (Term.ShownAt forest) left sockets)
    (rightShown : List.Forall₂ (Term.ShownAt forest) right sockets) : left = right := by
  induction leftShown generalizing right with
  | nil =>
    cases rightShown
    rfl
  | cons head _ ih =>
    cases rightShown with
    | cons otherHead otherTail => rw [head.unique otherHead, ih otherTail]

theorem shownBy_iff_of_faded (shown : meaning.faded.ShownBy forest items) :
    meaning.ShownBy forest items ↔ meaning.HoldsNoZero := by
  rw [← faded_eq_iff]
  constructor
  · intro whole
    cases meaning with
    | nothing => rfl
    | constant => rfl
    | socket =>
      obtain ⟨_, rfl, fadedShown⟩ := shown
      obtain ⟨_, same, termShown⟩ := whole
      cases same
      rw [faded, fadedShown.unique termShown]
    | struct =>
      obtain ⟨_, rfl, fadedShown⟩ := shown
      obtain ⟨_, same, termsShown⟩ := whole
      cases same
      obtain ⟨firstSame, othersSame⟩ :=
        List.cons.inj (eq_of_forall₂_shownAt fadedShown termsShown)
      rw [faded, firstSame, othersSame]
  · intro same
    rw [← same]
    exact shown

end Meaning

end NodeFormula
