import NodeScaffold.Proofs.SyntaxTrees

/-! # What the checks of a token search mean

Checks are run on the value of their field. A step that the generated code must not take, such as
looking into a null list or behind the end of an array, has no result. The search in a node runs the
checks of the arm for its tag, up to the first one that returns. -/
namespace NodeScaffold.Code.TokenSearch
set_option autoImplicit false

/-- What an expression can stand for: a value, an array or a count. -/
inductive Datum where
  | value (value : NodeValue)
  | tokens (leaves : List Leaf)
  | nodes (nodes : List SyntaxTree)
  | count (n : Nat)

namespace Datum

def ofLeaf (leaf : Leaf) : Datum := value (.token leaf)

def leaf? : Datum → Option Leaf
  | value (.token leaf) => some leaf
  | _ => none

def tree? : Datum → Option SyntaxTree
  | value (.child tree) => some tree
  | _ => none

def count? : Datum → Option Nat
  | count n => some n
  | _ => none

def isNull? : Datum → Option Bool
  | value .nullList | value (.child .null) => some true
  | value (.tokenList _) | value (.nodeList _) | value (.separatedList _ _)
  | value (.child (.node _ _)) => some false
  | _ => none

def member? : Datum → Member → Option Datum
  | value (.tokenList leaves), .array => some (tokens leaves)
  | value (.tokenList leaves), .size => some (count leaves.length)
  | value (.nodeList trees), .array => some (nodes trees)
  | value (.nodeList trees), .size => some (count trees.length)
  | value (.separatedList items _), .items => some (nodes items)
  | value (.separatedList items _), .itemCount => some (count items.length)
  | value (.separatedList _ separators), .separators => some (tokens separators)
  | value (.separatedList _ separators), .separatorCount => some (count separators.length)
  | _, _ => none

def element? : Datum → Datum → Option Datum
  | tokens leaves, count n => leaves[n]?.map ofLeaf
  | nodes trees, count n => trees[n]?.map fun tree => value (.child tree)
  | _, _ => none

end Datum

structure Scope where
  field : NodeValue
  /-- the search in another node -/
  look : Edge → SyntaxTree → Option Leaf
  /-- the place that an absent token says it has -/
  nowhere : Int
  locals : Variable → Option Leaf := fun _ => none

def Scope.declare (scope : Scope) (v : Variable) (leaf : Leaf) : Scope :=
  { scope with locals := fun w => if w = v then some leaf else scope.locals w }

def Expr.eval (scope : Scope) : Expr → Option Datum
  | field => some (.value scope.field)
  | member list m => (list.eval scope).bind (·.member? m)
  | element array index => (array.eval scope).bind fun a => (index.eval scope).bind a.element?
  | zero => some (.count 0)
  | lessOne count => ((count.eval scope).bind Datum.count?).bind fun n =>
    if n = 0 then none else some (.count (n - 1))
  | search edge node => (((node.eval scope).bind Datum.tree?).bind (scope.look edge)).map .ofLeaf
  | asRoot node => node.eval scope
  | read v => (scope.locals v).map .ofLeaf
  | absentToken => some (.ofLeaf .absent)

def Expr.leaf? (scope : Scope) (e : Expr) : Option Leaf := (e.eval scope).bind Datum.leaf?

def Expr.count? (scope : Scope) (e : Expr) : Option Nat := (e.eval scope).bind Datum.count?

/-- Whether the first of two tokens says that it stands behind the second. -/
def Leaf.isBehind (nowhere : Int) (leaf leaf' : Leaf) : Bool :=
  leaf'.ordinal?.getD nowhere < leaf.ordinal?.getD nowhere

def Condition.eval (scope : Scope) : Condition → Option Bool
  | isPresent token => (token.leaf? scope).map fun leaf => leaf ≠ .absent
  | notNull pointer => ((pointer.eval scope).bind Datum.isNull?).map not
  | isZero count => (count.count? scope).map fun n => n = 0
  | notZero count => (count.count? scope).map fun n => n ≠ 0
  | both left right => (left.eval scope).bind fun holds =>
    if holds then right.eval scope else some false
  | comesLater left right => (left.leaf? scope).bind fun leaf =>
    (right.leaf? scope).map (Leaf.isBehind scope.nowhere leaf)

inductive Outcome where
  | goesOn (scope : Scope)
  | returns (leaf : Leaf)

def Outcome.answer? : Outcome → Option Leaf
  | goesOn _ => none
  | returns leaf => some leaf

def Statement.run (scope : Scope) : Statement → Option Outcome
  | returnIf condition result => (condition.eval scope).bind fun holds =>
    if holds then (result.leaf? scope).map .returns else some (.goesOn scope)
  | declare v value => (value.leaf? scope).map fun leaf => .goesOn (scope.declare v leaf)
  | declareChoice v condition yes no => (condition.eval scope).bind fun holds =>
    ((if holds then yes else no).leaf? scope).map fun leaf => .goesOn (scope.declare v leaf)

def Statement.runAll (scope : Scope) : List Statement → Option Outcome
  | [] => some (.goesOn scope)
  | statement :: statements => (statement.run scope).bind fun outcome =>
    match outcome with
    | .goesOn scope => runAll scope statements
    | .returns leaf => some (.returns leaf)

def Check.run (scope : Scope) : Check → Option (Option Leaf)
  | single statement => (statement.run scope).map Outcome.answer?
  | guarded condition statements => (condition.eval scope).bind fun holds =>
    if holds then (Statement.runAll scope statements).map Outcome.answer? else some none

/-- Runs checks one after the other, each on its value, up to the first one that returns. -/
def Check.runAll (look : Edge → SyntaxTree → Option Leaf) (nowhere : Int) :
    List (Check × NodeValue) → Option Leaf
  | [] => some .absent
  | (check, value) :: checks => (check.run { field := value, look, nowhere }).bind fun answer? =>
    match answer? with
    | some leaf => some leaf
    | none => runAll look nowhere checks

namespace Edge
variable {α : Type}

def ordered : Edge → List α → List α
  | first, items => items
  | last, items => items.reverse

def pick : Edge → List α → Option α
  | first, items => items.head?
  | last, items => items.getLast?

end Edge

def armChecks (conv : Conventions) (edge : Edge) (decl : NodeDecl) (values : List NodeValue) :
    List (Check × NodeValue) :=
  ((edge.order decl.fields).map fun field => Check.of edge (field.kind conv)).zip
    (edge.ordered values)

/-- The token that the search for an edge finds in a node. There is none in a null node, and none in
a node whose tag has no arm. -/
def search (conv : Conventions) (nowhere : Int) (nodes : List NodeDecl) (edge : Edge) :
    SyntaxTree → Option Leaf
  | .null => some .absent
  | .node tag values =>
    match nodes.find? (fun decl => tag ∈ decl.tags) with
    | none => some .absent
    | some decl => Check.runAll
      (fun edge' part =>
        -- A check hands on nothing but children, and these are smaller.
        if _h : part.size < (SyntaxTree.node tag values).size then
          search conv nowhere nodes edge' part
        else none)
      nowhere (armChecks conv edge decl values)
termination_by tree => tree.size
decreasing_by exact _h

def Leaf.later (nowhere : Int) (leaf leaf' : Leaf) : Leaf :=
  if isBehind nowhere leaf leaf' then leaf else leaf'

def answer? (nowhere : Int) (edge : Edge) (found : SyntaxTree → Leaf) : NodeValue → Option Leaf
  | .token leaf => if leaf = .absent then none else some leaf
  | .nullList => none
  | .tokenList leaves => edge.pick leaves
  | .nodeList nodes => (edge.pick nodes).map found
  | .separatedList items separators =>
    match edge with
    | .first => items.head?.map found
    | .last => items.getLast?.bind fun item =>
      let later := Leaf.later nowhere (found item) (separators.getLast?.getD .absent)
      if later = .absent then none else some later
  | .child .null => none
  | .child (.node tag values) => some (found (.node tag values))

namespace Edge
variable {α : Type}

/-- The element of an array that the code refers to is the one at the edge. -/
theorem getElem?_index (edge : Edge) (items : List α) :
    items[match edge with | first => 0 | last => items.length - 1]? = edge.pick items := by
  cases edge with
  | first => exact List.head?_eq_getElem?.symm
  | last => exact List.getLast?_eq_getElem?.symm

theorem exists_pick_eq (edge : Edge) {items : List α} (h : items ≠ []) :
    ∃ item ∈ items, edge.pick items = some item := by
  cases edge with
  | first => exact ⟨items.head h, List.head_mem h, List.head?_eq_some_head h⟩
  | last => exact ⟨items.getLast h, List.getLast_mem h, List.getLast?_eq_some_getLast h⟩

end Edge

section
variable {scope : Scope} {edge : Edge} {elements count : Member} {n : Nat}

theorem Edge.eval_element {array : Datum}
    (hArray : (Datum.value scope.field).member? elements = some array)
    (hCount : (Datum.value scope.field).member? count = some (.count n)) (hn : n ≠ 0) :
    (edge.element elements count).eval scope =
      array.element? (.count (match edge with | first => 0 | last => n - 1)) := by
  cases edge with
  | first => simp [element, Expr.eval, hArray]
  | last => simp [element, Expr.eval, hArray, hCount, Datum.count?, hn]

theorem Edge.leaf?_element {leaves : List Leaf}
    (hArray : (Datum.value scope.field).member? elements = some (.tokens leaves))
    (hCount : (Datum.value scope.field).member? count = some (.count leaves.length))
    (h : leaves ≠ []) : (edge.element elements count).leaf? scope = edge.pick leaves := by
  rw [Expr.leaf?, eval_element hArray hCount (by simpa using h), Datum.element?, getElem?_index]
  cases edge.pick leaves <;> rfl

theorem Edge.tree?_element {trees : List SyntaxTree}
    (hArray : (Datum.value scope.field).member? elements = some (.nodes trees))
    (hCount : (Datum.value scope.field).member? count = some (.count trees.length))
    (h : trees ≠ []) :
    ((edge.element elements count).eval scope).bind Datum.tree? = edge.pick trees := by
  rw [eval_element hArray hCount (by simpa using h), Datum.element?, getElem?_index]
  cases edge.pick trees <;> rfl

theorem eval_hasElements (hNull : (Datum.value scope.field).isNull? = some false)
    (hCount : (Datum.value scope.field).member? count = some (.count n)) :
    (hasElements count).eval scope = some (decide (n ≠ 0)) := by
  simp [hasElements, Condition.eval, Expr.eval, hNull, Expr.count?, hCount, Datum.count?]

theorem Check.run_returnIf {condition : Condition} {result : Expr} {holds : Bool}
    (h : condition.eval scope = some holds) :
    (Check.single (.returnIf condition result)).run scope =
      if holds then (result.leaf? scope).map some else some none := by
  simp only [run, Statement.run, h, Option.bind_some]
  cases holds with
  | false => rfl
  | true => simp [Option.map_map, Function.comp_def, Outcome.answer?]

/-- A search in the element at an edge of a list of nodes. -/
theorem Edge.leaf?_search {trees : List SyntaxTree} {found : SyntaxTree → Leaf}
    (hArray : (Datum.value scope.field).member? elements = some (.nodes trees))
    (hCount : (Datum.value scope.field).member? count = some (.count trees.length))
    (h : trees ≠ []) (hLook : ∀ part ∈ trees, scope.look edge part = some (found part)) :
    (Expr.search edge (edge.element elements count)).leaf? scope =
      (edge.pick trees).map found := by
  obtain ⟨part, hMem, hPart⟩ := edge.exists_pick_eq h
  rw [Expr.leaf?, Expr.eval, tree?_element hArray hCount h, hPart]
  simp [hLook part hMem, Datum.ofLeaf, Datum.leaf?]

end

section
variable {look : Edge → SyntaxTree → Option Leaf} {found : SyntaxTree → Leaf} {nowhere : Int}
  {value : NodeValue} {edge : Edge} {kind : FieldKind}

theorem Check.run_token (leaf : Leaf) :
    (Check.of edge .token).run { field := .token leaf, look, nowhere } =
      some (answer? nowhere edge found (.token leaf)) := by
  have hPresent : (Condition.isPresent .field).eval { field := .token leaf, look, nowhere } =
      some (decide (leaf ≠ .absent)) := rfl
  rw [Check.of, run_returnIf hPresent, answer?]
  by_cases hLeaf : leaf = .absent
  · simp [hLeaf]
  · simp [hLeaf, Expr.leaf?, Expr.eval, Datum.leaf?]

theorem Check.run_tokenList (leaves : List Leaf) :
    (Check.of edge .tokenList).run { field := .tokenList leaves, look, nowhere } =
      some (answer? nowhere edge found (.tokenList leaves)) := by
  rw [Check.of, run_returnIf (eval_hasElements rfl rfl), answer?]
  by_cases hNil : leaves = []
  · subst hNil
    cases edge <;> rfl
  · obtain ⟨leaf, -, hLeaf⟩ := edge.exists_pick_eq hNil
    rw [if_pos (by simpa using hNil), Edge.leaf?_element rfl rfl hNil, hLeaf]
    rfl

theorem Check.run_nodeList {trees : List SyntaxTree}
    (hLook : ∀ part ∈ trees, look edge part = some (found part)) :
    (Check.of edge .nodeList).run { field := .nodeList trees, look, nowhere } =
      some (answer? nowhere edge found (.nodeList trees)) := by
  rw [Check.of, run_returnIf (eval_hasElements rfl rfl), answer?]
  by_cases hNil : trees = []
  · subst hNil
    cases edge <;> rfl
  · obtain ⟨tree, -, hTree⟩ := edge.exists_pick_eq hNil
    rw [if_pos (by simpa using hNil), Edge.leaf?_search rfl rfl hNil hLook, hTree]
    rfl

theorem Check.run_separatedList_first {items : List SyntaxTree} (separators : List Leaf)
    (hLook : ∀ part ∈ items, look .first part = some (found part)) :
    (Check.of .first .separatedList).run
        { field := .separatedList items separators, look, nowhere } =
      some (answer? nowhere .first found (.separatedList items separators)) := by
  rw [Check.of, run_returnIf (eval_hasElements rfl rfl), answer?]
  by_cases hNil : items = []
  · subst hNil
    rfl
  · obtain ⟨item, -, hItem⟩ := Edge.first.exists_pick_eq hNil
    rw [if_pos (by simpa using hNil), Edge.leaf?_search rfl rfl hNil hLook, hItem]
    exact congrArg some (congrArg (Option.map found) hItem).symm

section
variable {scope scope' : Scope} {statement : Statement} {leaf : Leaf}

theorem Statement.runAll_of_goesOn (statements : List Statement)
    (h : statement.run scope = some (.goesOn scope')) :
    runAll scope (statement :: statements) = runAll scope' statements := by
  rw [runAll, h, Option.bind_some]

theorem Statement.run_declareChoice {condition : Condition} {yes no : Expr} (v : Variable)
    (h : (condition.eval scope).bind
      (fun holds => (if holds then yes else no).leaf? scope) = some leaf) :
    (declareChoice v condition yes no).run scope = some (.goesOn (scope.declare v leaf)) := by
  obtain ⟨holds, hHolds, hLeaf⟩ := Option.bind_eq_some_iff.mp h
  rw [run, hHolds, Option.bind_some, hLeaf, Option.map_some]

theorem Expr.leaf?_read {v : Variable} (h : scope.locals v = some leaf) :
    (read v).leaf? scope = some leaf := by
  rw [leaf?, eval, h]
  rfl

theorem leaf?_later {v v' : Variable} {leaf' : Leaf} (h : scope.locals v = some leaf)
    (h' : scope.locals v' = some leaf') :
    ((Condition.comesLater (.read v) (.read v')).eval scope).bind
      (fun holds => (if holds then Expr.read v else .read v').leaf? scope) =
        some (Leaf.later scope.nowhere leaf leaf') := by
  rw [Condition.eval, Expr.leaf?_read h, Expr.leaf?_read h', Option.bind_some, Option.map_some,
    Option.bind_some, Leaf.later]
  split
  · exact Expr.leaf?_read h
  · exact Expr.leaf?_read h'

theorem Statement.runAll_returnIf_read {v : Variable} (h : scope.locals v = some leaf) :
    (runAll scope [returnIf (.isPresent (.read v)) (.read v)]).map Outcome.answer? =
      some (if leaf = .absent then none else some leaf) := by
  rw [runAll, run, Condition.eval, Expr.leaf?_read h]
  by_cases hAbsent : leaf = .absent
  · simp [hAbsent, runAll, Outcome.answer?]
  · simp [hAbsent, Outcome.answer?]

end

theorem leaf?_lastSeparator {scope : Scope} {items : List SyntaxTree} {separators : List Leaf}
    (h : scope.field = .separatedList items separators) :
    ((Condition.isZero (.member .field .separatorCount)).eval scope).bind (fun holds =>
      (if holds then Expr.absentToken
        else Edge.last.element .separators .separatorCount).leaf? scope) =
      some (separators.getLast?.getD .absent) := by
  have hZero : (Condition.isZero (.member .field .separatorCount)).eval scope =
      some (decide (separators.length = 0)) := by
    simp [Condition.eval, Expr.count?, Expr.eval, h, Datum.member?, Datum.count?]
  rw [hZero, Option.bind_some]
  by_cases hNil : separators = []
  · subst hNil
    rfl
  · obtain ⟨separator, -, hSeparator⟩ := Edge.last.exists_pick_eq hNil
    have hLast : separators.getLast? = some separator := hSeparator
    rw [if_neg (by simpa using hNil),
      Edge.leaf?_element (by rw [h]; rfl) (by rw [h]; rfl) hNil, hSeparator, hLast]
    rfl

/-- The last check of a list with separators, which has one statement for each of its tokens. -/
theorem Check.run_separatedList_last {items : List SyntaxTree} (separators : List Leaf)
    (hLook : ∀ part ∈ items, look .last part = some (found part)) :
    (Check.of .last .separatedList).run
        { field := .separatedList items separators, look, nowhere } =
      some (answer? nowhere .last found (.separatedList items separators)) := by
  rw [Check.of, run, eval_hasElements rfl rfl, Option.bind_some, answer?]
  by_cases hNil : items = []
  · subst hNil
    rfl
  · obtain ⟨item, -, hItem⟩ := Edge.last.exists_pick_eq hNil
    have hLast : items.getLast? = some item := hItem
    rw [if_pos (by simpa using hNil), hLast, Option.bind_some]
    let start : Scope := { field := .separatedList items separators, look, nowhere }
    let separator := separators.getLast?.getD .absent
    let tokens := (start.declare .lastItem (found item)).declare .lastSeparator separator
    have hFound := @Edge.leaf?_search start .last .items .itemCount items found rfl rfl hNil hLook
    rw [hItem, Option.map_some] at hFound
    have hFirst : (Statement.declare .lastItem
        (.search .last (Edge.last.element .items .itemCount))).run start =
          some (.goesOn (start.declare .lastItem (found item))) := by
      rw [Statement.run, hFound, Option.map_some]
    have hSecond := @leaf?_lastSeparator (start.declare .lastItem (found item)) items separators rfl
    have hThird : ((Condition.comesLater (.read .lastItem) (.read .lastSeparator)).eval tokens).bind
        (fun holds => (if holds then Expr.read .lastItem else .read .lastSeparator).leaf? tokens) =
          some (Leaf.later nowhere (found item) separator) :=
      leaf?_later rfl rfl
    rw [Statement.runAll_of_goesOn _ hFirst,
      Statement.runAll_of_goesOn _ (Statement.run_declareChoice .lastSeparator hSecond),
      Statement.runAll_of_goesOn _ (Statement.run_declareChoice .later hThird)]
    exact Statement.runAll_returnIf_read rfl

theorem Check.run_child {tree : SyntaxTree} (hLook : look edge tree = some (found tree)) :
    (Check.of edge .node).run { field := .child tree, look, nowhere } =
      some (answer? nowhere edge found (.child tree)) := by
  cases tree with
  | null => rfl
  | node tag values =>
    have hNull : (Condition.notNull .field).eval
        { field := .child (.node tag values), look, nowhere } = some true := rfl
    rw [Check.of, run_returnIf hNull, answer?]
    simp [Expr.leaf?, Expr.eval, Datum.tree?, hLook, Datum.ofLeaf, Datum.leaf?]

/-- What a check does with a value that its field can have. -/
theorem Check.run_of (hFits : value.fits kind)
    (hLook : ∀ part ∈ value.children, look edge part = some (found part)) :
    (Check.of edge kind).run { field := value, look, nowhere } =
      some (answer? nowhere edge found value) := by
  cases kind with
  | token =>
    cases value with
    | token leaf => exact run_token leaf
    | _ => cases hFits
  | tokenList =>
    cases value with
    | nullList => rfl
    | tokenList leaves => exact run_tokenList leaves
    | _ => cases hFits
  | nodeList =>
    cases value with
    | nullList => rfl
    | nodeList trees => exact run_nodeList hLook
    | _ => cases hFits
  | separatedList =>
    cases value with
    | nullList => cases edge <;> rfl
    | separatedList items separators =>
      cases edge with
      | first => exact run_separatedList_first separators hLook
      | last => exact run_separatedList_last separators hLook
    | _ => cases hFits
  | node =>
    cases value with
    | child tree => exact run_child (hLook tree (List.mem_singleton.mpr rfl))
    | _ => cases hFits

end

end NodeScaffold.Code.TokenSearch
