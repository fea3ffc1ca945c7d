import Agora.Formalization.Meaning

namespace Agora.Formalization

open Marl (Text)

/-!
# The walk of the validator

A node has a sort as soon as every operation below it has its arity and every symbol below it is
declared (`wellFormed`), whatever the sorts and the units are.  A well-formed formula is a leaf, a
unary or a binary operation (`wellFormed_induction`), and the walk of an operation is the walk of
its arguments followed by `inferOperation` (`walk_unary`, `walk_binary`).  So the issues of the walk
are what `inferOperation` finds at the nodes (`mem_walk`), and a node is known by its path.
-/

theorem issueIf_eq_nil {condition : Bool} {code path message : String} :
    issueIf condition code path message = [] ↔ condition = false := by
  cases condition <;> simp [issueIf]

theorem mem_issueIf {condition : Bool} {code path message : String} {issue : ValidationIssue} :
    issue ∈ issueIf condition code path message
      ↔ condition = true ∧ issue = ⟨code, path, message⟩ := by
  cases condition <;> simp [issueIf]

section Issues

variable {revision : FormalizationRevision}

theorem mem_issues {issue : ValidationIssue} : issue ∈ (validateRevision revision).issues
    ↔ issue ∈ duplicateIssues revision.symbols [] 0
      ∨ issue ∈ (walk revision.symbols revision.ast "ast").1
      ∨ issue ∈ issueIf ((walk revision.symbols revision.ast "ast").2.1.any (· ≠ .boolean))
        "NON_BOOLEAN_ROOT" "ast" "formalization root must be BOOLEAN"
      ∨ issue ∈ issueIf (revision.canonicalRendering ≠ renderAst revision.ast)
        "NONCANONICAL_RENDERING" "canonical_rendering" "rendering differs" := by
  rw [validateRevision]
  simp only [List.mem_insertionSort, List.mem_append, or_assoc]

/-- Validation succeeds when there is no issue. -/
theorem success_iff_issues : (validateRevision revision).success = true
    ↔ (validateRevision revision).issues = [] := by
  simp only [validateRevision, List.isEmpty_iff]
  constructor
  · intro hnil
    rw [hnil]
    rfl
  · intro hsorted
    have hperm := List.perm_insertionSort ValidationIssue.Le
    exact List.nil_perm.mp (hsorted ▸ hperm _)

theorem duplicateIssues_eq_nil {symbols : List SymbolDeclaration} {seen : List SymbolName}
    {index : ℕ} : duplicateIssues symbols seen index = []
      ↔ (symbols.map (·.name)).Nodup ∧ ∀ symbol ∈ symbols, symbol.name ∉ seen := by
  induction symbols generalizing seen index with
  | nil => exact ⟨fun _ => ⟨List.nodup_nil, List.forall_mem_nil _⟩, fun _ => rfl⟩
  | cons symbol symbols ih =>
    rw [duplicateIssues, List.append_eq_nil_iff, issueIf_eq_nil, decide_eq_false_iff_not, ih,
      List.map_cons, List.nodup_cons, List.forall_mem_cons]
    constructor
    · rintro ⟨hnew, hnodup, hdisjoint⟩
      refine ⟨⟨fun hmem => ?_, hnodup⟩, hnew, ?_⟩
      · obtain ⟨other, hother, hname⟩ := List.mem_map.mp hmem
        exact hdisjoint other hother (hname ▸ List.mem_cons_self)
      · exact fun other hother hmem => hdisjoint other hother (List.mem_cons_of_mem _ hmem)
    · rintro ⟨⟨hname, hnodup⟩, hnew, hdisjoint⟩
      refine ⟨hnew, hnodup, fun other hother hmem => ?_⟩
      rcases List.mem_cons.mp hmem with heq | hmem
      · exact hname (List.mem_map.mpr ⟨other, hother, heq⟩)
      · exact hdisjoint other hother hmem

/-- What a revision has that passes validation. -/
theorem success_iff : (validateRevision revision).success = true
    ↔ (revision.symbols.map (·.name)).Nodup
      ∧ (walk revision.symbols revision.ast "ast").1 = []
      ∧ (walk revision.symbols revision.ast "ast").2.1.all (· = .boolean) = true
      ∧ revision.canonicalRendering = renderAst revision.ast := by
  simp only [validateRevision, List.isEmpty_iff, List.append_eq_nil_iff, issueIf_eq_nil,
    duplicateIssues_eq_nil, List.not_mem_nil, not_false_eq_true, implies_true, and_true, and_assoc]
  cases (walk revision.symbols revision.ast "ast").2.1 <;> simp

end Issues

/-! ### Well-formed formulas -/

section WellFormed

variable (declarations : List SymbolDeclaration)

mutual
/-- Every operation has its arity and every symbol is declared. -/
def ASTNode.wellFormed : ASTNode → Bool
  | .boolean _ | .integer _ | .real _ => true
  | .symbol name => (declaration? declarations name).isSome
  | .operation operator arguments =>
    arguments.length = operator.arity && ASTNode.wellFormedItems arguments
def ASTNode.wellFormedItems : List ASTNode → Bool
  | [] => true
  | node :: nodes => node.wellFormed && ASTNode.wellFormedItems nodes
end

end WellFormed

section Induction

variable {declarations : List SymbolDeclaration} {operator : Operator} {x y : ASTNode}

theorem wellFormed_unary : (ASTNode.operation operator [x]).wellFormed declarations = true
    ↔ operator.arity = 1 ∧ x.wellFormed declarations = true := by
  rw [eq_comm (b := 1)]
  simp [ASTNode.wellFormed, ASTNode.wellFormedItems]

theorem wellFormed_binary : (ASTNode.operation operator [x, y]).wellFormed declarations = true
    ↔ operator.arity = 2 ∧ x.wellFormed declarations = true
      ∧ y.wellFormed declarations = true := by
  rw [eq_comm (b := 2)]
  simp [ASTNode.wellFormed, ASTNode.wellFormedItems]

theorem arity_eq_of_wellFormed {arguments : List ASTNode}
    (h : (ASTNode.operation operator arguments).wellFormed declarations = true) :
    arguments.length = operator.arity := by
  rw [ASTNode.wellFormed, Bool.and_eq_true, decide_eq_true_eq] at h
  exact h.1

theorem arity_pos (operator : Operator) : operator.arity = 1 ∨ operator.arity = 2 := by
  cases operator <;> simp [Operator.arity]

/-- **Induction.**  A well-formed formula is a literal, a declared symbol, or an operation on one
    or two well-formed formulas. -/
theorem wellFormed_induction {motive : ASTNode → Prop} (boolean : ∀ v, motive (.boolean v))
    (integer : ∀ v, motive (.integer v)) (real : ∀ v, motive (.real v))
    (symbol : ∀ name d, declaration? declarations name = some d → motive (.symbol name))
    (unary : ∀ operator x, operator.arity = 1 → x.wellFormed declarations = true → motive x →
      motive (.operation operator [x]))
    (binary : ∀ operator x y, operator.arity = 2 → x.wellFormed declarations = true →
      y.wellFormed declarations = true → motive x → motive y →
      motive (.operation operator [x, y])) :
    ∀ node : ASTNode, node.wellFormed declarations = true → motive node
  | .boolean v, _ => boolean v
  | .integer v, _ => integer v
  | .real v, _ => real v
  | .symbol name, h => by
    obtain ⟨d, hd⟩ := Option.isSome_iff_exists.mp h
    exact symbol name d hd
  | .operation operator [], h => by
    have := arity_eq_of_wellFormed h
    have := arity_pos operator
    simp only [List.length_nil] at *
    omega
  | .operation operator [x], h => by
    obtain ⟨harity, hx⟩ := wellFormed_unary.mp h
    exact unary operator x harity hx
      (wellFormed_induction boolean integer real symbol unary binary x hx)
  | .operation operator [x, y], h => by
    obtain ⟨harity, hx, hy⟩ := wellFormed_binary.mp h
    exact binary operator x y harity hx hy
      (wellFormed_induction boolean integer real symbol unary binary x hx)
      (wellFormed_induction boolean integer real symbol unary binary y hy)
  | .operation operator (_ :: _ :: _ :: nodes), h => by
    have := arity_eq_of_wellFormed h
    have := arity_pos operator
    simp only [List.length_cons] at *
    omega

end Induction

/-! ### The walk -/

section Walk

variable {declarations : List SymbolDeclaration} {operator : Operator} {x y : ASTNode}
  {path : String}

mutual
/-- What the walk infers does not depend on the path. -/
theorem walk_path : ∀ (node : ASTNode) (p q : String),
    (walk declarations node p).2 = (walk declarations node q).2
  | .boolean _, _, _ | .integer _, _, _ | .real _, _, _ => rfl
  | .symbol name, p, q => by
    rw [walk, walk]
    cases declaration? declarations name <;> rfl
  | .operation operator arguments, p, q => by
    have hitems := walkItems_path arguments p q 0
    rw [walk, walk]
    simp only [hitems]
    split
    · rfl
    · cases operator <;> rfl
theorem walkItems_path : ∀ (nodes : List ASTNode) (p q : String) (index : ℕ),
    (walkItems declarations nodes p index).2 = (walkItems declarations nodes q index).2
  | [], _, _, _ => rfl
  | node :: nodes, p, q, index => by
    rw [walkItems, walkItems]
    simp only [walk_path node (argumentPath p index) (argumentPath q index),
      walkItems_path nodes p q (index + 1)]
end

/-- The sort and the unit of a node. -/
def ASTNode.inferred (declarations : List SymbolDeclaration) (node : ASTNode) : Inferred :=
  (walk declarations node "ast").2

theorem walk_snd (node : ASTNode) (path : String) :
    (walk declarations node path).2 = node.inferred declarations :=
  walk_path node path "ast"

theorem length_walkItems (declarations : List SymbolDeclaration) (nodes : List ASTNode)
    (path : String) (index : ℕ) :
    (walkItems declarations nodes path index).2.length = nodes.length := by
  induction nodes generalizing index with
  | nil => rfl
  | cons node nodes ih => rw [walkItems, List.length_cons, List.length_cons, ih]

/-- The walk of an operation whose arguments have sorts. -/
theorem walk_operation {arguments : List ASTNode}
    {sorts : List SymbolSort} (harity : arguments.length = operator.arity)
    (hsorts : (walkItems declarations arguments path 0).2.map Prod.fst = sorts.map some) :
    let found := inferOperation operator path sorts
      ((walkItems declarations arguments path 0).2.map Prod.snd)
    walk declarations (.operation operator arguments) path
      = ((walkItems declarations arguments path 0).1 ++ found.1, some found.2.1, found.2.2) := by
  have hlength := length_walkItems declarations arguments path 0
  have hsome : ¬ (walkItems declarations arguments path 0).2.any (·.1.isNone) = true := by
    intro hany
    obtain ⟨entry, hentry, hnone⟩ := List.any_eq_true.mp hany
    have hmem := List.mem_map_of_mem (f := Prod.fst) hentry
    rw [hsorts] at hmem
    obtain ⟨s, -, hs⟩ := List.mem_map.mp hmem
    rw [← hs] at hnone
    cases hnone
  have hfilter : (walkItems declarations arguments path 0).2.filterMap Prod.fst = sorts := by
    have hmap : (walkItems declarations arguments path 0).2.filterMap Prod.fst
        = ((walkItems declarations arguments path 0).2.map Prod.fst).filterMap id := by
      rw [List.filterMap_map]
      rfl
    rw [hmap, hsorts, List.filterMap_map]
    exact List.filterMap_some
  rw [walk]
  simp only [harity, issueIf, ne_eq, not_true_eq_false, decide_false, Bool.false_eq_true, if_false,
    List.nil_append, hlength, hsome, or_self, hfilter]

/-- The walk of a unary operation. -/
theorem walk_unary {s : SymbolSort} {u : Option String} (harity : operator.arity = 1)
    (hx : x.inferred declarations = (some s, u)) :
    walk declarations (.operation operator [x]) path
      = ((walk declarations x (argumentPath path 0)).1 ++ (inferOperation operator path [s] [u]).1,
        some (inferOperation operator path [s] [u]).2.1,
        (inferOperation operator path [s] [u]).2.2) := by
  have hx' := (walk_snd x (argumentPath path 0)).trans hx
  have hitems : (walkItems declarations [x] path 0).2 = [(some s, u)] := by
    rw [walkItems, walkItems]
    exact congrArg (· :: []) hx'
  have hsorts : (walkItems declarations [x] path 0).2.map Prod.fst = [s].map some := by
    rw [hitems]
    rfl
  rw [walk_operation (show [x].length = operator.arity from harity.symm) hsorts, hitems]
  rw [walkItems, walkItems]
  simp only [List.append_nil, List.map_cons, List.map_nil]

/-- The walk of a binary operation. -/
theorem walk_binary {s s' : SymbolSort} {u u' : Option String} (harity : operator.arity = 2)
    (hx : x.inferred declarations = (some s, u)) (hy : y.inferred declarations = (some s', u')) :
    walk declarations (.operation operator [x, y]) path
      = ((walk declarations x (argumentPath path 0)).1
          ++ (walk declarations y (argumentPath path 1)).1
          ++ (inferOperation operator path [s, s'] [u, u']).1,
        some (inferOperation operator path [s, s'] [u, u']).2.1,
        (inferOperation operator path [s, s'] [u, u']).2.2) := by
  have hx' := (walk_snd x (argumentPath path 0)).trans hx
  have hy' := (walk_snd y (argumentPath path 1)).trans hy
  have hitems : (walkItems declarations [x, y] path 0).2 = [(some s, u), (some s', u')] := by
    rw [walkItems, walkItems, walkItems]
    exact congrArg₂ (fun a b => [a, b]) hx' hy'
  have hsorts : (walkItems declarations [x, y] path 0).2.map Prod.fst = [s, s'].map some := by
    rw [hitems]
    rfl
  rw [walk_operation (show [x, y].length = operator.arity from harity.symm) hsorts, hitems]
  rw [walkItems, walkItems, walkItems]
  simp only [List.append_nil, List.map_cons, List.map_nil]

/-- A well-formed formula has a sort. -/
theorem exists_inferred {node : ASTNode} (h : node.wellFormed declarations = true) :
    ∃ s u, node.inferred declarations = (some s, u) := by
  revert node
  apply wellFormed_induction
  · exact fun _ => ⟨_, _, rfl⟩
  · exact fun _ => ⟨_, _, rfl⟩
  · exact fun _ => ⟨_, _, rfl⟩
  · intro name d hd
    refine ⟨d.sort, d.unit.map Text.text, ?_⟩
    rw [ASTNode.inferred, walk, hd]
  · intro operator x harity _ ⟨s, u, hx⟩
    exact ⟨_, _, by rw [ASTNode.inferred, walk_unary harity hx]⟩
  · intro operator x y harity _ _ ⟨s, u, hx⟩ ⟨s', u', hy⟩
    exact ⟨_, _, by rw [ASTNode.inferred, walk_binary harity hx hy]⟩

mutual
/-- Without an issue about arities or symbols a formula is well-formed. -/
theorem wellFormed_of_walk : ∀ {node : ASTNode} {path : String},
    (∀ issue ∈ (walk declarations node path).1,
      issue.code ≠ "WRONG_ARITY" ∧ issue.code ≠ "UNDECLARED_SYMBOL") →
      node.wellFormed declarations = true
  | .boolean _, _, _ | .integer _, _, _ | .real _, _, _ => rfl
  | .symbol name, path, h => by
    rw [walk] at h
    rw [ASTNode.wellFormed]
    cases hd : declaration? declarations name with
    | none =>
      rw [hd] at h
      exact absurd rfl (h _ (List.mem_singleton.mpr rfl)).2
    | some d => rfl
  | .operation operator arguments, path, h => by
    rw [walk] at h
    have hparts : ∀ issue ∈ issueIf (arguments.length ≠ operator.arity) "WRONG_ARITY" path
          (operator.value ++ " requires " ++ toString operator.arity ++ " arguments")
        ++ (walkItems declarations arguments path 0).1,
        issue.code ≠ "WRONG_ARITY" ∧ issue.code ≠ "UNDECLARED_SYMBOL" := by
      intro issue hissue
      simp only at h
      split at h
      · exact h issue hissue
      · exact h issue (List.mem_append_left _ hissue)
    rw [ASTNode.wellFormed, Bool.and_eq_true, decide_eq_true_eq]
    constructor
    · by_contra harity
      apply (hparts _ (List.mem_append_left _ (mem_issueIf.mpr ⟨?_, rfl⟩))).1 rfl
      exact decide_eq_true harity
    · exact wellFormedItems_of_walk fun issue hissue =>
        hparts issue (List.mem_append_right _ hissue)
theorem wellFormedItems_of_walk : ∀ {nodes : List ASTNode} {path : String} {index : ℕ},
    (∀ issue ∈ (walkItems declarations nodes path index).1,
      issue.code ≠ "WRONG_ARITY" ∧ issue.code ≠ "UNDECLARED_SYMBOL") →
      ASTNode.wellFormedItems declarations nodes = true
  | [], _, _, _ => rfl
  | node :: nodes, path, index, h => by
    rw [walkItems] at h
    rw [ASTNode.wellFormedItems, Bool.and_eq_true]
    constructor
    · exact wellFormed_of_walk fun issue hissue => h issue (List.mem_append_left _ hissue)
    · exact wellFormedItems_of_walk fun issue hissue => h issue (List.mem_append_right _ hissue)
end

end Walk

/-! ### Nodes -/

section Nodes

variable (declarations : List SymbolDeclaration)

mutual
/-- The nodes of a formula with their paths. -/
def nodes : ASTNode → String → List (String × ASTNode)
  | .operation operator arguments, path =>
    (path, .operation operator arguments) :: nodesItems arguments path 0
  | node, path => [(path, node)]
def nodesItems : List ASTNode → String → ℕ → List (String × ASTNode)
  | [], _, _ => []
  | node :: nodes', path, index =>
    nodes node (argumentPath path index) ++ nodesItems nodes' path (index + 1)
end

/-- The issues that the walk finds at a node itself. -/
def foundIssues : String × ASTNode → List ValidationIssue
  | (path, .operation operator arguments) =>
    (inferOperation operator path (arguments.filterMap fun node => (node.inferred declarations).1)
      (arguments.map fun node => (node.inferred declarations).2)).1
  | _ => []

end Nodes

section Found

variable {declarations : List SymbolDeclaration} {operator : Operator} {x y : ASTNode}
  {path : String}

theorem nodes_unary : nodes (.operation operator [x]) path
    = (path, .operation operator [x]) :: nodes x (argumentPath path 0) := by
  rw [nodes, nodesItems, nodesItems, List.append_nil]

theorem nodes_binary : nodes (.operation operator [x, y]) path
    = (path, .operation operator [x, y])
      :: (nodes x (argumentPath path 0) ++ nodes y (argumentPath path 1)) := by
  rw [nodes, nodesItems, nodesItems, nodesItems, List.append_nil]

/-- The issues of the walk are the issues of the nodes. -/
theorem mem_walk : ∀ node : ASTNode, node.wellFormed declarations = true → ∀ path issue,
    issue ∈ (walk declarations node path).1
      ↔ ∃ n ∈ nodes node path, issue ∈ foundIssues declarations n := by
  apply wellFormed_induction
  · simp [walk, nodes, foundIssues]
  · simp [walk, nodes, foundIssues]
  · simp [walk, nodes, foundIssues]
  · intro name d hd path issue
    rw [walk, hd]
    simp [nodes, foundIssues]
  · intro operator x harity hx ih path issue
    obtain ⟨s, u, hs⟩ := exists_inferred hx
    rw [walk_unary harity hs, nodes_unary, List.mem_append, ih, List.exists_mem_cons_iff, or_comm]
    simp only [foundIssues, List.filterMap_cons, List.filterMap_nil, List.map_cons, List.map_nil,
      hs]
  · intro operator x y harity hx hy ih ih' path issue
    obtain ⟨s, u, hs⟩ := exists_inferred hx
    obtain ⟨s', u', hs'⟩ := exists_inferred hy
    rw [walk_binary harity hs hs', nodes_binary, List.mem_append, List.mem_append, ih, ih',
      List.exists_mem_cons_iff, or_comm]
    simp only [foundIssues, List.filterMap_cons, List.filterMap_nil, List.map_cons, List.map_nil,
      hs, hs', List.mem_append, or_and_right, exists_or]

/-- Issues of an operation name its path. -/
theorem path_of_inferOperation {sorts : List SymbolSort} {units : List (Option String)}
    {issue : ValidationIssue} (h : issue ∈ (inferOperation operator path sorts units).1) :
    issue.path = path := by
  revert h
  cases operator <;> simp only [inferOperation, List.mem_append, mem_issueIf] <;> grind

/-- An issue names the path of its node. -/
theorem path_of_foundIssues {n : String × ASTNode} {issue : ValidationIssue}
    (h : issue ∈ foundIssues declarations n) : issue.path = n.1 := by
  obtain ⟨path, node⟩ := n
  cases node with
  | operation operator arguments => exact path_of_inferOperation h
  | _ => cases h

theorem below_of_mem_nodes : ∀ node : ASTNode, node.wellFormed declarations = true → ∀ path,
    ∀ n ∈ nodes node path, Below path n.1 := by
  have hself (path : String) : Below path path := List.prefix_refl _
  apply wellFormed_induction
  · simp [nodes, hself]
  · simp [nodes, hself]
  · simp [nodes, hself]
  · simp [nodes, hself]
  · intro operator x _ _ ih path n hn
    rw [nodes_unary, List.mem_cons] at hn
    rcases hn with rfl | hn
    · exact hself path
    · exact (below_argumentPath path 0).trans (ih _ n hn)
  · intro operator x y _ _ _ ih ih' path n hn
    rw [nodes_binary, List.mem_cons, List.mem_append] at hn
    rcases hn with rfl | hn | hn
    · exact hself path
    · exact (below_argumentPath path 0).trans (ih _ n hn)
    · exact (below_argumentPath path 1).trans (ih' _ n hn)

/-- A path is not below its arguments. -/
theorem ne_of_below {index : ℕ} {below : String} (h : Below (argumentPath path index) below) :
    path ≠ below := by
  rintro rfl
  have hlength := h.length_le
  rw [toList_argumentPath] at hlength
  simp only [List.length_append, List.length_cons] at hlength
  omega

/-- A node is known by its path. -/
theorem nodes_inj : ∀ node : ASTNode, node.wellFormed declarations = true → ∀ path,
    ∀ n ∈ nodes node path, ∀ m ∈ nodes node path, n.1 = m.1 → n = m := by
  apply wellFormed_induction
  · simp [nodes]
  · simp [nodes]
  · simp [nodes]
  · simp [nodes]
  · intro operator x _ hx ih path n hn m hm heq
    have hbelow := below_of_mem_nodes x hx (argumentPath path 0)
    rw [nodes_unary, List.mem_cons] at hn hm
    rcases hn with rfl | hn <;> rcases hm with rfl | hm
    · rfl
    · exact absurd heq (ne_of_below (hbelow m hm))
    · exact absurd heq.symm (ne_of_below (hbelow n hn))
    · exact ih _ n hn m hm heq
  · intro operator x y _ hx hy ih ih' path n hn m hm heq
    have hbelow := below_of_mem_nodes x hx (argumentPath path 0)
    have hbelow' := below_of_mem_nodes y hy (argumentPath path 1)
    rw [nodes_binary, List.mem_cons, List.mem_append] at hn hm
    rcases hn with rfl | hn | hn <;> rcases hm with rfl | hm | hm
    · rfl
    · exact absurd heq (ne_of_below (hbelow m hm))
    · exact absurd heq (ne_of_below (hbelow' m hm))
    · exact absurd heq.symm (ne_of_below (hbelow n hn))
    · exact ih _ n hn m hm heq
    · exact absurd (eq_of_below (hbelow n hn) (heq ▸ hbelow' m hm)) (by decide)
    · exact absurd heq.symm (ne_of_below (hbelow' n hn))
    · exact absurd (eq_of_below (hbelow m hm) (heq ▸ hbelow' n hn)) (by decide)
    · exact ih' _ n hn m hm heq

/-- The nodes of a node are nodes of the formula. -/
theorem nodes_trans : ∀ node : ASTNode, node.wellFormed declarations = true → ∀ path,
    ∀ n ∈ nodes node path, n.2.wellFormed declarations = true
      ∧ ∀ m ∈ nodes n.2 n.1, m ∈ nodes node path := by
  have hself {node : ASTNode} (h : node.wellFormed declarations = true) (path : String) :
      ∀ n ∈ [(path, node)], n.2.wellFormed declarations = true
        ∧ ∀ m ∈ nodes n.2 n.1, m ∈ nodes node path :=
    List.forall_mem_singleton.mpr ⟨h, fun _ hm => hm⟩
  apply wellFormed_induction
  · exact fun v path => hself rfl path
  · exact fun v path => hself rfl path
  · exact fun v path => hself rfl path
  · intro name d hd path
    exact hself (by rw [ASTNode.wellFormed, hd]; rfl) path
  · intro operator x harity hx ih path n hn
    rw [nodes_unary, List.mem_cons] at hn
    rcases hn with rfl | hn
    · exact ⟨wellFormed_unary.mpr ⟨harity, hx⟩, fun _ hm => hm⟩
    · obtain ⟨hwell, hsub⟩ := ih _ n hn
      refine ⟨hwell, fun m hm => ?_⟩
      rw [nodes_unary]
      exact List.mem_cons_of_mem _ (hsub m hm)
  · intro operator x y harity hx hy ih ih' path n hn
    rw [nodes_binary, List.mem_cons, List.mem_append] at hn
    rcases hn with rfl | hn | hn
    · exact ⟨wellFormed_binary.mpr ⟨harity, hx, hy⟩, fun _ hm => hm⟩
    · obtain ⟨hwell, hsub⟩ := ih _ n hn
      refine ⟨hwell, fun m hm => ?_⟩
      rw [nodes_binary]
      exact List.mem_cons_of_mem _ (List.mem_append_left _ (hsub m hm))
    · obtain ⟨hwell, hsub⟩ := ih' _ n hn
      refine ⟨hwell, fun m hm => ?_⟩
      rw [nodes_binary]
      exact List.mem_cons_of_mem _ (List.mem_append_right _ (hsub m hm))

theorem foundIssues_binary {s s' : SymbolSort} {u u' : Option String}
    (hx : x.inferred declarations = (some s, u)) (hy : y.inferred declarations = (some s', u')) :
    foundIssues declarations (path, .operation operator [x, y])
      = (inferOperation operator path [s, s'] [u, u']).1 := by
  simp only [foundIssues, List.filterMap_cons, List.filterMap_nil, List.map_cons, List.map_nil, hx,
    hy]

end Found

end Agora.Formalization
