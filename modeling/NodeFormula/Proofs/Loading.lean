import NodeFormula.Proofs.Compiling
import NodeFormula.Proofs.Refusals
import NodeFormula.Library

/-!
# What a library keeps of its formulas

Definitions are added to the library while a formula is being checked.  A formula that is refused
leaves the definitions before the statement at fault behind, and a folder whose files have no
reports those of each file before the first one that is refused without a report.
-/

namespace NodeFormula

open List Bool

variable {kind : TreeKind} {accepted : Bool}

variable {stmt : Stmt}

/-- A function that a definition declares is known. -/
def Stmt.Registered (kind : TreeKind) (functions : FunctionTable) (stmt : Stmt) : Prop :=
  ∃ function, function ∈ (functions.lookup function.name).getD [] ∧ stmt.Declares kind function

namespace Checker

variable {checker after : Checker}

/-- The ways in which checking a formula comes to an answer. -/
inductive Answered (parsed : Parser.Parsed) (before : Checker) : Checker → Bool → Prop
  | unread (reported : parsed.reports ≠ []) :
      Answered parsed before { before with reports := parsed.reports } false
  | accepted {after : Checker} (clean : parsed.reports = [])
      (done : checkStmts parsed.body { before with reports := [] } = .ok () after) :
      Answered parsed before after true
  | refused {done : List Stmt} {stmt : Stmt} {rest : List Stmt} {middle after : Checker}
      (clean : parsed.reports = []) (body : parsed.body = done ++ stmt :: rest)
      (passed : checkStmts done { before with reports := [] } = .ok () middle)
      (rejected : checkStmt stmt middle = .error .rejected after) :
      Answered parsed before after false

theorem answered_of_check [Evaluator] (checking : checker.check source = (after, .ok accepted)) :
    ∃ parsed, parse source = .ok parsed ∧ Answered parsed checker after accepted := by
  rw [check] at checking
  cases reading : parse source with
  | error =>
    rw [reading] at checking
    cases checking
  | ok parsed =>
    rw [reading] at checking
    refine ⟨parsed, rfl, ?_⟩
    simp only at checking
    split at checking
    · rename_i reported
      cases checking
      refine .unread ?_
      intro clean
      rw [clean] at reported
      cases reported
    · rename_i unreported
      have clean : parsed.reports = [] := by
        rw [not_eq_true, not_eq_false'] at unreported
        exact isEmpty_iff.mp unreported
      rw [clean] at checking
      cases ran : (checkStmts parsed.body).run { checker with reports := [] } with
      | ok =>
        rw [ran] at checking
        cases checking
        exact .accepted clean ran
      | error refusal =>
        rw [ran] at checking
        cases refusal with
        | fault fault => cases checking
        | rejected =>
          cases checking
          obtain ⟨_, _, _, _, body, passed, rejected⟩ := checkStmts_eq_error ran
          exact .refused clean body passed rejected

/-- The statements before the first one that is refused without a report. -/
def audible (kind : TreeKind) (stmts : List Stmt) : List Stmt :=
  stmts.takeWhile fun stmt => !stmt.isMute kind

theorem audible_append (loud : ∀ stmt ∈ stmts, stmt.isMute kind = false) (rest : List Stmt) :
    audible kind (stmts ++ rest) = stmts ++ audible kind rest := by
  refine takeWhile_append_of_pos ?_
  intro stmt member
  rw [loud stmt member]
  rfl

theorem audible_eq_self (loud : ∀ stmt ∈ stmts, stmt.isMute kind = false) :
    audible kind stmts = stmts := by
  have whole := audible_append loud []
  rw [append_nil] at whole
  rw [whole]
  exact append_nil stmts

theorem audible_of_rejected
    (passed : checkStmts done { checker with reports := [] } = .ok () middle)
    (rejected : checkStmt stmt middle = .error .rejected after) (rest : List Stmt) :
    (stmt.isMute checker.kind = true ∧ after.reports = [] ∧
      audible checker.kind (done ++ stmt :: rest) = done) ∨
    (after.reports ≠ [] ∧ audible checker.kind (done ++ stmt :: rest) =
      done ++ stmt :: audible checker.kind rest) := by
  obtain ⟨kind, reports, loud, _⟩ := accepted_of_checkStmts passed
  rw [audible_append loud]
  cases concluded_of_eq rejected with
  | refused refused =>
    rw [kind] at refused
    cases refused with
    | reported _ isLoud _ added =>
      right
      constructor
      · rw [added]
        exact append_ne_nil_of_right_ne_nil _ (cons_ne_nil _ _)
      · rw [audible, takeWhile_cons_of_pos]
        · rfl
        · rw [isLoud]
          rfl
    | silenced isMute _ kept =>
      left
      refine ⟨isMute, kept.trans reports, ?_⟩
      rw [audible, takeWhile_cons_of_neg, append_nil]
      rw [isMute]
      decide

namespace Answered

variable {after : Checker}

/-- A formula is accepted if nothing is reported and no default is refused silently. -/
theorem accepted_iff (answered : Answered parsed before after accepted) : accepted = true ↔
      after.reports = [] ∧ ∀ stmt ∈ parsed.body, stmt.isMute before.kind = false := by
  cases answered with
  | unread reported => exact ⟨by simp, fun silent => absurd silent.1 reported⟩
  | accepted _ done =>
    have accepted := accepted_of_checkStmts done
    exact ⟨fun _ => ⟨accepted.reports, accepted.loud⟩, fun _ => rfl⟩
  | @refused done stmt rest _ _ _ body passed rejected =>
    refine ⟨by simp, ?_⟩
    rintro ⟨silent, loud⟩
    rcases audible_of_rejected passed rejected rest with ⟨isMute, _⟩ | ⟨reported, _⟩
    · rw [loud stmt (by simp [body])] at isMute
      cases isMute
    · exact absurd silent reported

theorem reports_eq_nil_iff (answered : Answered parsed before after accepted) :
    after.reports = [] ↔ parsed.reports = [] ∧ ∃ middle,
      checkStmts (audible before.kind parsed.body) { before with reports := [] } =
        .ok () middle := by
  cases answered with
  | unread reported =>
    exact ⟨fun silent => absurd silent reported, fun clean => absurd clean.1 reported⟩
  | accepted clean done =>
    have accepted := accepted_of_checkStmts done
    rw [audible_eq_self accepted.loud]
    exact ⟨fun _ => ⟨clean, _, done⟩, fun _ => accepted.reports⟩
  | @refused done stmt rest middle _ clean body passed rejected =>
    rw [body]
    rcases audible_of_rejected passed rejected rest with ⟨_, silent, isDone⟩ | ⟨reported, goesOn⟩
    · rw [isDone]
      exact ⟨fun _ => ⟨clean, middle, passed⟩, fun _ => silent⟩
    · refine ⟨fun silent => absurd silent reported, ?_⟩
      rintro ⟨_, _, checked⟩
      rw [goesOn, checkStmts_append passed, checkStmts_cons_error rejected] at checked
      cases checked

theorem functions_eq (answered : Answered parsed before after accepted)
    (silent : after.reports = []) : after.kind = before.kind ∧ ∃ defined,
      List.Forall₂ (Stmt.Declares before.kind)
        ((audible before.kind parsed.body).filter (·.isDefinition)) defined ∧
      after.functions = defined.foldl insertFunction before.functions := by
  cases answered with
  | unread reported => exact absurd silent reported
  | accepted _ done =>
    have accepted := accepted_of_checkStmts done
    rw [audible_eq_self accepted.loud]
    exact ⟨accepted.kind, accepted.functions⟩
  | @refused done stmt rest middle _ clean body passed rejected =>
    have accepted := accepted_of_checkStmts passed
    have same : SameTables middle after := by
      cases concluded_of_eq rejected with
      | refused refused => exact refused.same
    rw [body]
    rcases audible_of_rejected passed rejected rest with ⟨_, _, isDone⟩ | ⟨reported, _⟩
    · rw [isDone, same.functions]
      exact ⟨same.kind.trans accepted.kind, accepted.functions⟩
    · exact absurd silent reported

end Answered

end Checker

theorem registered_foldl_insertFunction (defined : List TypedFunction)
    (known : stmt.Registered kind functions) :
    stmt.Registered kind (defined.foldl Checker.insertFunction functions) := by
  obtain ⟨function, listed, declares⟩ := known
  refine ⟨function, ?_, declares⟩
  rw [Checker.lookup_foldl_insertFunction]
  exact mem_append_right _ listed

theorem registered_of_declares (declares : List.Forall₂ (Stmt.Declares kind) stmts defined)
    (member : stmt ∈ stmts) (functions : FunctionTable) :
    stmt.Registered kind (defined.foldl Checker.insertFunction functions) := by
  obtain ⟨place, rfl⟩ := mem_iff_get.mp member
  have found := declares.get place.isLt (declares.length_eq ▸ place.isLt)
  refine ⟨_, ?_, found⟩
  rw [Checker.lookup_foldl_insertFunction]
  apply mem_append_left
  rw [mem_reverse, mem_filter]
  exact ⟨get_mem _ _, decide_eq_true rfl⟩

namespace Library

theorem withFunctions_functions (library : Library) (kind : TreeKind) :
    library.withFunctions kind (library.functions kind) = library := by
  cases kind <;> rfl

theorem functions_withFunctions (library : Library) (kind : TreeKind) (functions : FunctionTable) :
    (library.withFunctions kind functions).functions kind = functions := by
  cases kind <;> rfl

theorem functions_withFunctions_of_ne (library : Library) (differs : other ≠ kind)
    (functions : FunctionTable) :
    (library.withFunctions kind functions).functions other = library.functions other := by
  cases kind <;> cases other <;> first | rfl | exact absurd rfl differs

theorem compile_eq_ok [Evaluator] {library after : Library}
    (compiled : library.compile label source = (after, .ok outcome)) :
    ∃ kind checker, TreeKind.ofLabel label = .ok kind ∧
      (Checker.new kind (library.functions kind)).check source = (checker, .ok outcome.accepted) ∧
      after = library.withFunctions kind checker.functions := by
  rw [compile] at compiled
  cases labelled : TreeKind.ofLabel label with
  | error =>
    rw [labelled] at compiled
    cases compiled
  | ok kind =>
    rw [labelled] at compiled
    cases checking : (Checker.new kind (library.functions kind)).check source with
    | mk checker answer =>
      simp only [Compiler.compile, checking] at compiled
      refine ⟨kind, checker, rfl, ?_⟩
      rw [checking]
      rcases answer with fault | ⟨_ | _⟩
      · cases compiled
      · cases compiled
        exact ⟨rfl, rfl⟩
      · simp only at compiled
        split at compiled
        · cases compiled
          exact ⟨rfl, rfl⟩
        · cases compiled

/-! ## Formulas that are refused -/

theorem foldl_insertFunction_eq_self {functions : FunctionTable}
    (same : defined.foldl Checker.insertFunction functions = functions) : defined = [] := by
  cases defined with
  | nil => rfl
  | cons function others =>
    have counted := congrArg List.length
      (Checker.lookup_foldl_insertFunction (function :: others) functions function.name)
    rw [same] at counted
    simp at counted
    omega

/--
A formula that is refused leaves the functions for the other kind of tree alone.  Of its definitions
exactly those before the first statement that is refused are kept.
-/
theorem failed_compile_keeps_definitions [Evaluator] {library after : Library}
    {label source : String}
    {outcome : Compiler.Outcome} (compiled : library.compile label source = (after, .ok outcome))
    (failed : outcome.accepted = false) :
    ∃ kind parsed, TreeKind.ofLabel label = .ok kind ∧ parse source = .ok parsed ∧
      (∀ other, other ≠ kind → after.functions other = library.functions other) ∧
      (parsed.reports ≠ [] ∧ after = library ∨
        parsed.reports = [] ∧ ∃ done stmt rest middle last defined,
          parsed.body = done ++ stmt :: rest ∧
          Checker.checkStmts done (.new kind (library.functions kind)) = .ok () middle ∧
          Checker.checkStmt stmt middle = .error .rejected last ∧
          List.Forall₂ (Stmt.Declares kind) (done.filter (·.isDefinition)) defined ∧
          after.functions kind =
            defined.foldl Checker.insertFunction (library.functions kind) ∧
          (after = library ↔ ∀ earlier ∈ done, earlier.isDefinition = false)) := by
  rcases compile_eq_ok compiled with ⟨kind, checker, labelled, checking, rfl⟩
  rw [failed] at checking
  rcases Checker.answered_of_check checking with ⟨parsed, reading, answered⟩
  refine ⟨kind, parsed, labelled, reading, ?_, ?_⟩
  · intro other differs
    exact functions_withFunctions_of_ne library differs checker.functions
  cases answered with
  | unread reported => exact .inl ⟨reported, withFunctions_functions library kind⟩
  | @refused done stmt rest middle _ clean body passed rejected =>
    rcases Checker.accepted_of_checkStmts passed with ⟨_, _, _, defined, declares, functions⟩
    have unchanged : checker.functions = middle.functions := by
      cases Checker.concluded_of_eq rejected with
      | refused refused => exact refused.same.functions
    refine .inr ⟨clean, done, stmt, rest, middle, checker, defined, body, passed, rejected,
      declares, ?_, ?_⟩
    · rw [functions_withFunctions, unchanged, functions]
      rfl
    · constructor
      · intro same
        have kept : defined.foldl Checker.insertFunction (library.functions kind) =
            library.functions kind := by
          rw [unchanged, functions] at same
          have again := congrArg (Library.functions · kind) same
          rwa [functions_withFunctions] at again
        rw [foldl_insertFunction_eq_self kept, List.forall₂_nil_right_iff,
          List.filter_eq_nil_iff] at declares
        intro earlier member
        exact eq_false_iff.mpr (declares earlier member)
      · intro none
        have empty : done.filter (·.isDefinition) = [] := by
          rw [List.filter_eq_nil_iff]
          intro earlier member isDefinition
          rw [none earlier member] at isDefinition
          cases isDefinition
        rw [empty, List.forall₂_nil_left_iff] at declares
        rw [unchanged, functions, declares]
        exact withFunctions_functions library kind

def halfDefined : String := "fn f(a: float) -> r: float { out r = a; } nosuch(1.0);"

theorem failed_compile_keeps_definitions_half : ∃ after outcome parsed done stmt rest defined,
      empty.compile TreeKind.geometry.label halfDefined = (after, .ok outcome) ∧
      outcome.accepted = false ∧ parse halfDefined = .ok parsed ∧
      parsed.body = done ++ stmt :: rest ∧
      List.Forall₂ (Stmt.Declares .geometry) (done.filter (·.isDefinition)) defined ∧
      after.geometry = defined.foldl Checker.insertFunction [] ∧ defined ≠ [] := by
  obtain ⟨after, outcome, compiled, failed, differs⟩ : ∃ after outcome,
      empty.compile TreeKind.geometry.label halfDefined = (after, .ok outcome) ∧
      outcome.accepted = false ∧ after.geometry ≠ [] := by decide +kernel
  rcases failed_compile_keeps_definitions compiled failed with
    ⟨kind, parsed, labelled, reading, _, ⟨_, same⟩ | ⟨_, done, stmt, rest, _, _, defined, body, _,
      _, declares, functions, same⟩⟩
  · exact absurd (congrArg geometry same) differs
  · cases labelled
    refine ⟨after, outcome, parsed, done, stmt, rest, defined, compiled, failed, reading, body,
      declares, functions, ?_⟩
    rintro rfl
    exact differs functions

theorem failed_compile_changes_library :
    ∃ after outcome, empty.compile TreeKind.geometry.label halfDefined = (after, .ok outcome) ∧
      outcome.accepted = false ∧ after ≠ empty := by
  obtain ⟨after, outcome, compiled, failed, differs⟩ : ∃ after outcome,
      empty.compile TreeKind.geometry.label halfDefined = (after, .ok outcome) ∧
      outcome.accepted = false ∧ after.geometry ≠ [] := by decide +kernel
  exact ⟨after, outcome, compiled, failed, fun same => differs (congrArg geometry same)⟩

end Library

/-! ## Folders of formulas -/

def Document.source : Document → String
  | .text source => String.ofList (unifyLineEnds source.toList)
  | .cache _ => ""

/-- All definitions of a text before the first silent refusal are known. -/
def FunctionTable.Keeps [Evaluator] (kind : TreeKind) (functions : FunctionTable)
    (source : String) : Prop :=
  ∃ parsed, parse source = .ok parsed ∧ parsed.reports = [] ∧
    ∀ stmt ∈ Checker.audible kind parsed.body, stmt.isDefinition = true →
      stmt.Registered kind functions

/-- Functions have been added, and the kind of tree is the same. -/
def Checker.Grown (before after : Checker) : Prop :=
  after.kind = before.kind ∧ ∃ defined : List TypedFunction,
    after.functions = defined.foldl Checker.insertFunction before.functions

theorem Checker.Grown.refl (checker : Checker) : checker.Grown checker := ⟨rfl, [], rfl⟩

theorem Checker.Grown.trans {before middle after : Checker} (first : before.Grown middle)
    (second : middle.Grown after) : before.Grown after := by
  obtain ⟨sameFirst, earlier, added⟩ := first
  obtain ⟨sameSecond, later, addedLater⟩ := second
  refine ⟨sameSecond.trans sameFirst, earlier ++ later, ?_⟩
  rw [addedLater, added, foldl_append]

theorem Checker.Grown.keeps [Evaluator] {before after : Checker} (grown : before.Grown after)
    (keeps : FunctionTable.Keeps before.kind before.functions source) :
    FunctionTable.Keeps before.kind after.functions source := by
  obtain ⟨parsed, reading, clean, known⟩ := keeps
  obtain ⟨_, defined, added⟩ := grown
  refine ⟨parsed, reading, clean, ?_⟩
  intro stmt member isDefinition
  rw [added]
  exact registered_foldl_insertFunction defined (known stmt member isDefinition)

namespace Library

variable {after : Loading} {folder : Folder}

theorem checkFile_eq_nil [Evaluator] {checker after : Checker}
    (checked : checkFile applies checker name source = .ok (after, [])) : checker.Grown after ∧
      (applies = true → FunctionTable.Keeps checker.kind after.functions source) := by
  rw [checkFile] at checked
  cases applies with
  | false =>
    cases checked
    exact ⟨.refl checker, by simp⟩
  | true =>
    rw [if_pos rfl] at checked
    cases checking : checker.check source with
    | mk last answer =>
      rw [checking] at checked
      cases answer with
      | error => cases checked
      | ok =>
        simp only [Except.ok.injEq, Prod.mk.injEq] at checked
        obtain ⟨rfl, unproblematic⟩ := checked
        have silent : last.reports = [] := by
          split at unproblematic
          · rename_i isNil
            exact isEmpty_iff.mp isNil
          · cases unproblematic
        obtain ⟨parsed, reading, answered⟩ := Checker.answered_of_check checking
        obtain ⟨kind, defined, declares, functions⟩ := answered.functions_eq silent
        refine ⟨⟨kind, defined, functions⟩, fun _ => ⟨parsed, reading,
          (answered.reports_eq_nil_iff.mp silent).1, ?_⟩⟩
        intro _ member isDefinition
        rw [functions]
        exact registered_of_declares declares
          (mem_filter.mpr ⟨member, isDefinition⟩) checker.functions

def Loading.checker (loading : Loading) : TreeKind → Checker
  | .geometry => loading.geometry
  | .shader => loading.shader

def isFor : TreeKind → String → Bool
  | .geometry => isForGeometry
  | .shader => isForShader

theorem checkFiles_cons_eq [Evaluator] (noCache : ¬isCache name = true) (document : Document)
    (loading : Loading) (folder : Folder) : checkFiles loading ((name, document) :: folder) =
      (checkFile (isForGeometry name) loading.geometry name document.source).bind fun first =>
        (checkFile (isForShader name) loading.shader name document.source).bind fun second =>
          checkFiles ⟨first.1, second.1, loading.problems ++ first.2 ++ second.2⟩ folder := by
  cases document with
  | text =>
    rw [checkFiles, if_neg noCache]
    rfl
  | cache =>
    rw [checkFiles, if_neg noCache]
    rfl

theorem checkFiles_cons [Evaluator] (noCache : ¬isCache name = true)
    (checked : checkFiles before ((name, document) :: folder) = .ok after) :
    ∃ (middle : Loading) (found : TreeKind → List FileReports),
      (∀ kind, checkFile (isFor kind name) (before.checker kind) name
        document.source = .ok (middle.checker kind, found kind)) ∧
      middle.problems = before.problems ++ found .geometry ++ found .shader ∧
      checkFiles middle folder = .ok after := by
  rw [checkFiles_cons_eq noCache] at checked
  cases geometry : checkFile (isForGeometry name) before.geometry name document.source with
  | error =>
    rw [geometry] at checked
    cases checked
  | ok first =>
    rw [geometry] at checked
    cases shader : checkFile (isForShader name) before.shader name document.source with
    | error =>
      rw [shader] at checked
      cases checked
    | ok second =>
      rw [shader] at checked
      let found : TreeKind → List FileReports
        | .geometry => first.2
        | .shader => second.2
      refine ⟨_, found, ?_, rfl, checked⟩
      intro kind
      cases kind
      · exact geometry
      · exact shader

/-- What a load without problems has done for each kind of tree. -/
structure Loaded [Evaluator] (folder : Folder) (before after : Loading) : Prop where
  unproblematic : before.problems = []
  grown : ∀ kind, (before.checker kind).Grown (after.checker kind)
  keeps : ∀ kind name document, (name, document) ∈ folder → isCache name = false →
    isFor kind name = true →
      FunctionTable.Keeps (before.checker kind).kind (after.checker kind).functions document.source

theorem loaded_of_checkFiles [Evaluator] (checked : checkFiles before folder = .ok after)
    (silent : after.problems = []) : Loaded folder before after := by
  induction folder generalizing before with
  | nil =>
    cases checked
    exact ⟨silent, fun _ => .refl _, by simp⟩
  | cons file _ ih =>
    obtain ⟨name, _⟩ := file
    by_cases isCached : isCache name = true
    · unfold checkFiles at checked
      rw [if_pos isCached] at checked
      have loaded := ih checked
      refine ⟨loaded.unproblematic, loaded.grown, ?_⟩
      intro kind other text member noCache
      rcases mem_cons.mp member with same | later
      · cases same
        rw [isCached] at noCache
        cases noCache
      · exact loaded.keeps kind other text later noCache
    · obtain ⟨_, found, checkedFile, problems, remaining⟩ := checkFiles_cons isCached checked
      have loaded := ih remaining
      -- Nothing was found in this file either, as problems are only added.
      have unproblematic := problems.symm.trans loaded.unproblematic
      rw [append_eq_nil_iff, append_eq_nil_iff] at unproblematic
      have nothing (kind : TreeKind) : found kind = [] := by
        cases kind
        · exact unproblematic.1.2
        · exact unproblematic.2
      have here (kind : TreeKind) := checkFile_eq_nil (nothing kind ▸ checkedFile kind)
      refine ⟨unproblematic.1.1, fun kind => (here kind).1.trans (loaded.grown kind), ?_⟩
      intro kind other text member noCache applies
      rcases mem_cons.mp member with same | later
      · cases same
        have known := (here kind).2 applies
        rw [← (here kind).1.1] at known ⊢
        exact (loaded.grown kind).keeps known
      · rw [← (here kind).1.1]
        exact loaded.keeps kind other text later noCache applies

def foreignMark : TreeKind → String
  | .geometry => shaderMark
  | .shader => geometryMark

theorem isFor_of_unmarked (unmarked : name.endsWith (foreignMark kind) = false) :
    isFor kind name = true := by
  cases kind
  · exact or_eq_true_iff.mpr (.inr (congrArg not unmarked))
  · exact or_eq_true_iff.mpr (.inr (congrArg not unmarked))

theorem load_eq_nil [Evaluator] {after : Folder}
    (loaded : load folder true = (after, library, .ok [])) :
    ∃ loading, checkFiles ⟨.new .geometry [], .new .shader [], []⟩ folder = .ok loading ∧
      loading.problems = [] ∧
        ∀ kind, library.functions kind = (loading.checker kind).functions := by
  rw [load, if_neg (by decide)] at loaded
  cases checked : checkFiles ⟨.new .geometry [], .new .shader [], []⟩ folder with
  | error =>
    rw [checked] at loaded
    cases loaded
  | ok loading =>
    rw [checked] at loaded
    simp only at loaded
    refine ⟨loading, rfl, ?_⟩
    split at loaded
    · rename_i problematic
      simp only [Prod.mk.injEq, Except.ok.injEq] at loaded
      rw [loaded.2.2] at problematic
      cases problematic
    · rename_i unproblematic
      rw [not_eq_true, not_eq_false'] at unproblematic
      obtain ⟨_, rfl, _⟩ := loaded
      refine ⟨isEmpty_iff.mp unproblematic, ?_⟩
      intro kind
      cases kind <;> rfl

/--
Checking a formula reports a failure, unless the first statement at fault is a definition whose
default is a constant that does not fit.  If loading a folder reports nothing, all definitions of
each file are known before the first such definition.
-/
theorem reports_unless_misfit [Evaluator] (checker : Checker) (source : String) (folder : Folder) :
    (∀ after accepted, checker.check source = (after, .ok accepted) →
      ∃ parsed, parse source = .ok parsed ∧ (accepted = true ↔
          after.reports = [] ∧ ∀ stmt ∈ parsed.body, stmt.isMute checker.kind = false) ∧
        (after.reports = [] ↔ parsed.reports = [] ∧ ∃ middle, Checker.checkStmts
          (Checker.audible checker.kind parsed.body) { checker with reports := [] } =
            .ok () middle)) ∧
    (∀ after library, load folder true = (after, library, .ok []) →
      ∀ kind name document, (name, document) ∈ folder → isCache name = false →
        name.endsWith (foreignMark kind) = false →
          FunctionTable.Keeps kind (library.functions kind) document.source) := by
  constructor
  · intro after accepted checking
    rcases Checker.answered_of_check checking with ⟨parsed, reading, answered⟩
    exact ⟨parsed, reading, answered.accepted_iff, answered.reports_eq_nil_iff⟩
  · intro after library loaded kind name document member noCache unmarked
    rcases load_eq_nil loaded with ⟨loading, checked, silent, functions⟩
    have keeps := (loaded_of_checkFiles checked silent).keeps kind name document member noCache
      (isFor_of_unmarked unmarked)
    rw [functions kind]
    cases kind <;> exact keeps

def fitting : String := "fn f(a: float = 1) -> r: float { out r = a; }"

def misfitting : String := "fn f(a: geo = 1) -> r: geo { out r = a; }"

theorem reports_unless_misfit_fitting :
    ∃ after library, load [("f", .text fitting)] true = (after, library, .ok []) ∧
      FunctionTable.Keeps .geometry library.geometry (Document.text fitting).source ∧
      FunctionTable.Keeps .shader library.shader (Document.text fitting).source := by
  obtain ⟨_, loaded, rfl⟩ : ∃ reports, (load [("f", .text fitting)] true).2.2 = .ok reports ∧
      reports = [] := by decide +kernel
  have keeps := (reports_unless_misfit (Checker.new .geometry []) fitting _).2 _ _
    (Prod.ext rfl (Prod.ext rfl loaded))
  refine ⟨_, _, Prod.ext rfl (Prod.ext rfl loaded), ?_, ?_⟩
  · exact keeps .geometry _ _ List.mem_cons_self (by decide +kernel) (by decide +kernel)
  · exact keeps .shader _ _ List.mem_cons_self (by decide +kernel) (by decide +kernel)

/-- A default that does not fit is refused without a report, and its file is loaded without it. -/
theorem misfit_not_reported :
    (∃ after, (Checker.new .geometry []).check misfitting = (after, .ok false) ∧
      after.reports = []) ∧
    ∃ after library, load [("f", .text misfitting)] true = (after, library, .ok []) ∧
      library.count = 0 := by
  refine ⟨⟨_, Prod.ext rfl ?_, ?_⟩, _, _, Prod.ext rfl (Prod.ext rfl ?_), ?_⟩ <;> decide +kernel

end Library

end NodeFormula
