import Agora.Formalization.Dimensions

namespace Agora.Formalization

open Marl (Text)

/-!
# Literals and symbols of unit 1

The walk gives a numeric literal no unit, and a symbol declared with unit `1` the unit `1`.  A
`Hole` is the place of one occurrence in a formula.  Filled with the literal or with such a symbol
the formula has the same issues of sorts and units unless the hole is a divisor, up to minus signs
and numerators (`sameIssues_iff`): every other operation treats the two units alike, and a divisor
must be written `1`.
-/

/-! ### Places in a formula -/

/-- A formula without one of its nodes, from the root to the node. -/
inductive Hole where
  | here
  | argument (operator : Operator) (before : List ASTNode) (inner : Hole) (after : List ASTNode)

def Hole.fill : Hole → ASTNode → ASTNode
  | .here, node => node
  | .argument operator before inner after, node =>
    .operation operator (before ++ inner.fill node :: after)

mutual
/-- The symbols that a formula refers to. -/
def ASTNode.names : ASTNode → List SymbolName
  | .symbol name => [name]
  | .operation _ arguments => ASTNode.namesItems arguments
  | _ => []
def ASTNode.namesItems : List ASTNode → List SymbolName
  | [] => []
  | node :: nodes => node.names ++ ASTNode.namesItems nodes
end

/-- The symbols outside the hole. -/
def Hole.names : Hole → List SymbolName
  | .here => []
  | .argument _ before inner after =>
    ASTNode.namesItems before ++ inner.names ++ ASTNode.namesItems after

/-- The sort of a numeric literal. -/
def ASTNode.literalSort? : ASTNode → Option SymbolSort
  | .integer _ => some .integer
  | .real _ => some .real
  | _ => none

section Conditions

variable (declarations : List SymbolDeclaration)

/-- The unit of the hole is the unit of the whole: there are only minus signs and numerators on the
    way. -/
def Hole.carries : Hole → Bool
  | .here => true
  | .argument .neg [] inner [] => inner.carries
  | .argument .div [] inner [y] => inner.carries && y.wellFormed declarations
  | _ => false

/-- The unit of the hole is the unit of a divisor. -/
def Hole.divides : Hole → Bool
  | .here => false
  | .argument operator before inner after =>
    inner.divides || match operator, before, after with
      | .div, [x], [] => inner.carries declarations && x.wellFormed declarations
      | _, _, _ => false

end Conditions

/-! ### The walk around the hole -/

section Around

variable {declarations declarations' : List SymbolDeclaration} {operator : Operator} {path : String}

mutual
/-- The walk reads the declarations of the names in the formula. -/
theorem walk_congr : ∀ (node : ASTNode) (path : String),
    (∀ name ∈ node.names, declaration? declarations name = declaration? declarations' name) →
      walk declarations node path = walk declarations' node path
  | .boolean _, _, _ | .integer _, _, _ | .real _, _, _ => rfl
  | .symbol name, path, h => by
    rw [walk, walk, h name (List.mem_singleton.mpr rfl)]
  | .operation operator arguments, path, h => by
    rw [walk, walk, walkItems_congr arguments path 0 h]
theorem walkItems_congr : ∀ (nodes : List ASTNode) (path : String) (index : ℕ),
    (∀ name ∈ ASTNode.namesItems nodes,
      declaration? declarations name = declaration? declarations' name) →
      walkItems declarations nodes path index = walkItems declarations' nodes path index
  | [], _, _, _ => rfl
  | node :: nodes, path, index, h => by
    rw [ASTNode.namesItems] at h
    rw [walkItems, walkItems,
      walk_congr node _ fun name hname => h name (List.mem_append_left _ hname),
      walkItems_congr nodes path _ fun name hname => h name (List.mem_append_right _ hname)]
end

theorem walkItems_append (nodes others : List ASTNode) (path : String) (index : ℕ) :
    walkItems declarations (nodes ++ others) path index
      = ((walkItems declarations nodes path index).1
          ++ (walkItems declarations others path (index + nodes.length)).1,
        (walkItems declarations nodes path index).2
          ++ (walkItems declarations others path (index + nodes.length)).2) := by
  induction nodes generalizing index with
  | nil => rfl
  | cons node nodes ih =>
    rw [List.cons_append, walkItems, ih, walkItems, List.length_cons, Nat.add_assoc,
      Nat.add_comm 1]
    simp only [List.append_assoc, List.cons_append]

/-- The walk of an operation after the walks of its arguments. -/
def walkOperation (operator : Operator) (path : String) (length : ℕ)
    (items : List ValidationIssue × List Inferred) : List ValidationIssue × Inferred :=
  let arityIssues := issueIf (length ≠ operator.arity) "WRONG_ARITY" path
    (operator.value ++ " requires " ++ toString operator.arity ++ " arguments")
  if items.2.length ≠ operator.arity ∨ items.2.any (·.1.isNone) then
    (arityIssues ++ items.1, none, none)
  else
    let found := inferOperation operator path (items.2.filterMap Prod.fst) (items.2.map Prod.snd)
    (arityIssues ++ items.1 ++ found.1, some found.2.1, found.2.2)

theorem walk_eq_walkOperation (operator : Operator) (arguments : List ASTNode) (path : String) :
    walk declarations (.operation operator arguments) path
      = walkOperation operator path arguments.length (walkItems declarations arguments path 0) := by
  rw [walk]
  rfl

/-- An operation adds issues at its own path. -/
theorem mem_walkOperation {length : ℕ} {items : List ValidationIssue × List Inferred}
    {issue : ValidationIssue} (h : issue ∈ (walkOperation operator path length items).1) :
    issue ∈ items.1 ∨ issue.path = path := by
  have harity : ∀ issue ∈ issueIf (length ≠ operator.arity) "WRONG_ARITY" path
      (operator.value ++ " requires " ++ toString operator.arity ++ " arguments"),
      issue.path = path := by
    intro issue hissue
    rw [(mem_issueIf.mp hissue).2]
  rw [walkOperation] at h
  split at h
  · rcases List.mem_append.mp h with h | h
    · exact .inr (harity issue h)
    · exact .inl h
  · rcases List.mem_append.mp h with h | h
    · rcases List.mem_append.mp h with h | h
      · exact .inr (harity issue h)
      · exact .inl h
    · exact .inr (path_of_inferOperation h)

theorem mem_walkOperation_of_mem {length : ℕ} {items : List ValidationIssue × List Inferred}
    {issue : ValidationIssue} (h : issue ∈ items.1) :
    issue ∈ (walkOperation operator path length items).1 := by
  rw [walkOperation]
  split
  · exact List.mem_append_right _ h
  · exact List.mem_append_left _ (List.mem_append_right _ h)

mutual
/-- Issues lie below the path of the walk. -/
theorem below_of_mem_walk : ∀ (node : ASTNode) (path : String),
    ∀ issue ∈ (walk declarations node path).1, Below path issue.path
  | .boolean _, _ | .integer _, _ | .real _, _ => List.forall_mem_nil _
  | .symbol name, path => by
    rw [walk]
    cases declaration? declarations name with
    | none => exact List.forall_mem_singleton.mpr (List.prefix_refl _)
    | some d => exact List.forall_mem_nil _
  | .operation operator arguments, path => by
    intro issue hissue
    rw [walk_eq_walkOperation] at hissue
    rcases mem_walkOperation hissue with hissue | hpath
    · obtain ⟨i, -, -, hbelow⟩ := below_of_mem_walkItems arguments path 0 issue hissue
      exact (below_argumentPath path i).trans hbelow
    · rw [hpath]
      exact List.prefix_refl _
theorem below_of_mem_walkItems : ∀ (nodes : List ASTNode) (path : String) (index : ℕ),
    ∀ issue ∈ (walkItems declarations nodes path index).1,
      ∃ i, index ≤ i ∧ i < index + nodes.length ∧ Below (argumentPath path i) issue.path
  | [], _, _ => List.forall_mem_nil _
  | node :: nodes, path, index => by
    intro issue hissue
    rw [walkItems, List.mem_append] at hissue
    rcases hissue with hissue | hissue
    · exact ⟨index, le_refl _, by simp, below_of_mem_walk node _ issue hissue⟩
    · obtain ⟨i, hle, hlt, hbelow⟩ := below_of_mem_walkItems nodes path _ issue hissue
      refine ⟨i, by omega, ?_, hbelow⟩
      rw [List.length_cons]
      omega
end

mutual
/-- A sort is inferred of well-formed formulas only. -/
theorem wellFormed_of_sort : ∀ (node : ASTNode) (path : String),
    (walk declarations node path).2.1.isSome = true → node.wellFormed declarations = true
  | .boolean _, _, _ | .integer _, _, _ | .real _, _, _ => rfl
  | .symbol name, path, h => by
    rw [walk] at h
    rw [ASTNode.wellFormed]
    cases hd : declaration? declarations name with
    | none =>
      rw [hd] at h
      cases h
    | some d => rfl
  | .operation operator arguments, path, h => by
    rw [walk_eq_walkOperation, walkOperation, length_walkItems] at h
    rw [ASTNode.wellFormed, Bool.and_eq_true, decide_eq_true_eq]
    split at h
    case isTrue => cases h
    case isFalse hsorts =>
      rw [not_or, not_not] at hsorts
      refine ⟨hsorts.1, wellFormedItems_of_sort arguments path 0 fun entry hentry => ?_⟩
      by_contra hnone
      apply hsorts.2
      rw [List.any_eq_true]
      exact ⟨entry, hentry, by simpa using hnone⟩
theorem wellFormedItems_of_sort : ∀ (nodes : List ASTNode) (path : String) (index : ℕ),
    (∀ entry ∈ (walkItems declarations nodes path index).2, entry.1.isSome = true) →
      ASTNode.wellFormedItems declarations nodes = true
  | [], _, _, _ => rfl
  | node :: nodes, path, index, h => by
    rw [walkItems, List.forall_mem_cons] at h
    rw [ASTNode.wellFormedItems, Bool.and_eq_true]
    exact ⟨wellFormed_of_sort node _ h.1, wellFormedItems_of_sort nodes path _ h.2⟩
end

theorem isSome_inferred (node : ASTNode) :
    (node.inferred declarations).1.isSome = node.wellFormed declarations := by
  rw [Bool.eq_iff_iff]
  constructor
  · exact wellFormed_of_sort node "ast"
  · intro h
    obtain ⟨s, u, hs⟩ := exists_inferred h
    rw [hs]
    rfl

end Around

/-! ### An operand without a unit and an operand of unit 1 -/

/-- The unit of this operand is the unit of the operation. -/
def Passes (operator : Operator) (before after : List Inferred) : Prop :=
  operator = .neg ∧ before = [] ∧ after = []
    ∨ operator = .div ∧ before = [] ∧ ∃ s u, after = [(some s, u)]

/-- The operand is a divisor, of a dividend that has a sort. -/
def IsDivisor (operator : Operator) (before after : List Inferred) : Prop :=
  operator = .div ∧ after = [] ∧ ∃ s u, before = [(some s, u)]

/-- The results of an operation without a unit for one of its operands, and with unit `1`. -/
structure SameButUnit (operator : Operator) (path : String) (before after : List Inferred)
    (a b : List ValidationIssue × Inferred) : Prop where
  sort : a.2.1 = b.2.1
  passed : Passes operator before after → a.2.1.isSome ∧ a.2.2 = none ∧ b.2.2 = some "1"
  unit : ¬ Passes operator before after → a.2.2 = b.2.2
  issues : ¬ IsDivisor operator before after → a.1 = b.1
  differs : IsDivisor operator before after →
    ⟨"UNSUPPORTED_UNIT_OPERATION", path, "DIV divisor must be dimensionless"⟩ ∈ a.1

section Operands

variable {operator : Operator} {path : String} {length : ℕ} {issues : List ValidationIssue}
  {s t : SymbolSort} {v : Option String}

theorem effectiveUnits_one_left : effectiveUnits [some "1", v] = effectiveUnits [none, v] := by
  rw [effectiveUnits_pair, effectiveUnits_pair]
  rfl

theorem effectiveUnits_one_right : effectiveUnits [v, some "1"] = effectiveUnits [v, none] := by
  rw [effectiveUnits_pair, effectiveUnits_pair]
  rfl

theorem walkOperation_one {u : Option String} (harity : operator.arity = 1) :
    walkOperation operator path length (issues, [(some s, u)])
      = (issueIf (length ≠ operator.arity) "WRONG_ARITY" path
            (operator.value ++ " requires " ++ toString operator.arity ++ " arguments") ++ issues
          ++ (inferOperation operator path [s] [u]).1,
        some (inferOperation operator path [s] [u]).2.1,
        (inferOperation operator path [s] [u]).2.2) := by
  rw [walkOperation, if_neg (by simp [harity])]
  rfl

theorem walkOperation_two {u : Option String} (harity : operator.arity = 2) :
    walkOperation operator path length (issues, [(some s, u), (some t, v)])
      = (issueIf (length ≠ operator.arity) "WRONG_ARITY" path
            (operator.value ++ " requires " ++ toString operator.arity ++ " arguments") ++ issues
          ++ (inferOperation operator path [s, t] [u, v]).1,
        some (inferOperation operator path [s, t] [u, v]).2.1,
        (inferOperation operator path [s, t] [u, v]).2.2) := by
  rw [walkOperation, if_neg (by simp [harity])]
  rfl

/-- The only operand. -/
theorem sameButUnit_only (harity : operator.arity = 1) :
    SameButUnit operator path [] []
      (walkOperation operator path length (issues, [(some s, none)]))
      (walkOperation operator path length (issues, [(some s, some "1")])) := by
  rw [walkOperation_one harity, walkOperation_one harity]
  cases operator <;> cases harity
  case not => exact ⟨rfl, by simp [Passes], fun _ => rfl, fun _ => rfl, by simp [IsDivisor]⟩
  case neg =>
    refine ⟨rfl, fun _ => ⟨rfl, rfl, rfl⟩, fun h => ?_, fun _ => rfl, by simp [IsDivisor]⟩
    exact absurd (.inl ⟨rfl, rfl, rfl⟩) h

/-- The first of two operands: the numerator passes its unit on. -/
theorem sameButUnit_left (harity : operator.arity = 2) :
    SameButUnit operator path [] [(some t, v)]
      (walkOperation operator path length (issues, [(some s, none), (some t, v)]))
      (walkOperation operator path length (issues, [(some s, some "1"), (some t, v)])) := by
  rw [walkOperation_two harity, walkOperation_two harity]
  have heffective := effectiveUnits_one_left (v := v)
  cases operator <;> cases harity
  case div =>
    refine ⟨rfl, fun _ => ⟨rfl, rfl, rfl⟩, fun h => ?_, fun _ => rfl, by simp [IsDivisor]⟩
    exact absurd (.inr ⟨rfl, rfl, t, v, rfl⟩) h
  all_goals
    refine ⟨rfl, by simp [Passes], fun _ => ?_, fun _ => ?_, by simp [IsDivisor]⟩
    · simp only [inferOperation, heffective] <;> rfl
    · simp only [inferOperation, heffective]

/-- The second of two operands: a divisor must have the unit `1`. -/
theorem sameButUnit_right (harity : operator.arity = 2) :
    SameButUnit operator path [(some t, v)] []
      (walkOperation operator path length (issues, [(some t, v), (some s, none)]))
      (walkOperation operator path length (issues, [(some t, v), (some s, some "1")])) := by
  rw [walkOperation_two harity, walkOperation_two harity]
  have heffective := effectiveUnits_one_right (v := v)
  cases operator <;> cases harity
  case div =>
    refine ⟨rfl, by simp [Passes], fun _ => rfl, fun h => ?_, fun _ => ?_⟩
    · exact absurd ⟨rfl, rfl, t, v, rfl⟩ h
    · refine List.mem_append_right _ (List.mem_append_right _ ?_)
      exact mem_issueIf.mpr ⟨rfl, rfl⟩
  all_goals
    refine ⟨rfl, by simp [Passes], fun _ => ?_, fun _ => ?_, by simp [IsDivisor]⟩
    · simp only [inferOperation, heffective] <;> rfl
    · simp only [inferOperation, heffective]

/-- **One operand.**  An operation treats an operand without a unit like one of unit `1`, but for a
    divisor, and it passes the unit on from under a minus sign and from a numerator only. -/
theorem walkOperation_sameButUnit (operator : Operator) (path : String) (length : ℕ)
    (issues : List ValidationIssue) (before after : List Inferred) (s : SymbolSort) :
    SameButUnit operator path before after
      (walkOperation operator path length (issues, before ++ (some s, none) :: after))
      (walkOperation operator path length (issues, before ++ (some s, some "1") :: after)) := by
  by_cases hsorts : (before ++ (some s, none) :: after).length ≠ operator.arity
      ∨ (before ++ ((some s, none) : Inferred) :: after).any (·.1.isNone) = true
  · have hsorts' : (before ++ (some s, some "1") :: after).length ≠ operator.arity
        ∨ (before ++ ((some s, some "1") : Inferred) :: after).any (·.1.isNone) = true := by
      simpa using hsorts
    rw [walkOperation, walkOperation, if_pos hsorts, if_pos hsorts']
    -- Without a sort for every operand nothing is inferred.
    refine ⟨rfl, fun h => absurd hsorts ?_, fun _ => rfl, fun _ => rfl, fun h => absurd hsorts ?_⟩
    · rcases h with ⟨rfl, rfl, rfl⟩ | ⟨rfl, rfl, t, v, rfl⟩ <;> simp [Operator.arity]
    · obtain ⟨rfl, rfl, t, v, rfl⟩ := h
      simp [Operator.arity]
  · rw [not_or, not_not] at hsorts
    obtain ⟨harity, hsome⟩ := hsorts
    have hpos := arity_pos operator
    simp only [List.length_append, List.length_cons] at harity
    rcases before with _ | ⟨⟨_ | t, v⟩, _ | ⟨x, before⟩⟩
    · rcases after with _ | ⟨⟨_ | t, v⟩, _ | ⟨y, after⟩⟩
      · exact sameButUnit_only harity.symm
      · simp at hsome
      · simp only [List.length_cons] at harity
        omega
      · exact sameButUnit_left harity.symm
      · simp only [List.length_cons] at harity
        omega
    · simp at hsome
    · simp at hsome
    · rcases after with _ | ⟨y, after⟩
      · exact sameButUnit_right harity.symm
      · simp only [List.length_cons] at harity
        omega
    · simp only [List.length_cons] at harity
      omega

end Operands

/-! ### The hole with a literal and with a symbol -/

section Holes

variable {declarations declarations' : List SymbolDeclaration} {operator : Operator}
  {before after : List ASTNode} {inner : Hole}

theorem exists_walkItems_singleton {y : ASTNode} {path : String} {index : ℕ} :
    (∃ s u, (walkItems declarations [y] path index).2 = [(some s, u)])
      ↔ y.wellFormed declarations = true := by
  rw [← isSome_inferred, ← walk_snd y (argumentPath path index), walkItems, walkItems]
  obtain ⟨issues, sort, u⟩ := walk declarations y (argumentPath path index)
  cases sort <;> simp

theorem walkItems_snd_eq_nil {nodes : List ASTNode} {path : String} {index : ℕ} :
    (walkItems declarations nodes path index).2 = [] ↔ nodes = [] := by
  rw [← List.length_eq_zero_iff, length_walkItems, List.length_eq_zero_iff]

theorem exists_singleton_of_walkItems {nodes : List ASTNode} {path : String} {index : ℕ}
    (h : ∃ s u, (walkItems declarations nodes path index).2 = [(some s, u)]) :
    ∃ y, nodes = [y] ∧ y.wellFormed declarations = true := by
  obtain ⟨s, u, hs⟩ := h
  have hlength : nodes.length = 1 := by
    rw [← length_walkItems declarations nodes path index, hs]
    rfl
  obtain ⟨y, rfl⟩ := List.length_eq_one_iff.mp hlength
  exact ⟨y, rfl, exists_walkItems_singleton.mp ⟨s, u, hs⟩⟩

theorem carries_argument {path : String} {i j : ℕ} :
    (Hole.argument operator before inner after).carries declarations = true
      ↔ inner.carries declarations = true ∧ Passes operator
        (walkItems declarations before path i).2 (walkItems declarations after path j).2 := by
  rw [Passes, walkItems_snd_eq_nil, walkItems_snd_eq_nil]
  constructor
  · intro h
    unfold Hole.carries at h
    split at h
    case h_1 heq => cases heq
    case h_2 heq =>
      cases heq
      exact ⟨h, .inl ⟨rfl, rfl, rfl⟩⟩
    case h_3 y heq =>
      cases heq
      rw [Bool.and_eq_true] at h
      exact ⟨h.1, .inr ⟨rfl, rfl, exists_walkItems_singleton.mpr h.2⟩⟩
    case h_4 => cases h
  · rintro ⟨hinner, ⟨rfl, rfl, rfl⟩ | ⟨rfl, rfl, hafter⟩⟩
    · rwa [Hole.carries]
    · obtain ⟨y, rfl, hy⟩ := exists_singleton_of_walkItems hafter
      rw [Hole.carries, hinner, hy]
      rfl

theorem divides_argument {path : String} {i j : ℕ} :
    (Hole.argument operator before inner after).divides declarations = true
      ↔ inner.divides declarations = true ∨ inner.carries declarations = true
        ∧ IsDivisor operator (walkItems declarations before path i).2
          (walkItems declarations after path j).2 := by
  rw [IsDivisor, walkItems_snd_eq_nil]
  constructor
  · intro h
    unfold Hole.divides at h
    rw [Bool.or_eq_true] at h
    refine h.imp_right fun h => ?_
    split at h
    case h_1 x =>
      rw [Bool.and_eq_true] at h
      exact ⟨h.1, rfl, rfl, exists_walkItems_singleton.mpr h.2⟩
    case h_2 => cases h
  · intro h
    unfold Hole.divides
    rw [Bool.or_eq_true]
    refine h.imp_right ?_
    rintro ⟨hinner, rfl, rfl, hbefore⟩
    obtain ⟨x, rfl, hx⟩ := exists_singleton_of_walkItems hbefore
    show (inner.carries declarations && x.wellFormed declarations) = true
    rw [hinner, hx]
    rfl

/-- The walks of a formula with a literal and with a symbol of unit `1`. -/
structure Swapped (declarations : List SymbolDeclaration) (hole : Hole)
    (a b : List ValidationIssue × Inferred) : Prop where
  sort : a.2.1 = b.2.1
  carried : hole.carries declarations = true → a.2.1.isSome ∧ a.2.2 = none ∧ b.2.2 = some "1"
  unit : hole.carries declarations = false → a.2.2 = b.2.2
  issues : hole.divides declarations = false → a.1 = b.1
  differs : hole.divides declarations = true →
    ∃ issue ∈ a.1, issue ∉ b.1 ∧ issue.code = "UNSUPPORTED_UNIT_OPERATION"

theorem walkOperation_snd {path : String} {length : ℕ} {issues issues' : List ValidationIssue}
    {inferred : List Inferred} : (walkOperation operator path length (issues, inferred)).2
      = (walkOperation operator path length (issues', inferred)).2 := by
  rw [walkOperation, walkOperation]
  split <;> rfl

section Argument

variable {path : String} {length : ℕ} {wa wb : List ValidationIssue × Inferred}

/-- An issue below the hole does not come from elsewhere. -/
theorem mem_inner_of_mem {issue : ValidationIssue}
    (hbelow : Below (argumentPath path before.length) issue.path)
    (h : issue ∈ (walkOperation operator path length
      ((walkItems declarations before path 0).1 ++ (wb.1
          ++ (walkItems declarations after path (before.length + 1)).1),
        (walkItems declarations before path 0).2 ++ wb.2
          :: (walkItems declarations after path (before.length + 1)).2)).1) : issue ∈ wb.1 := by
  rcases mem_walkOperation h with h | hpath
  · rcases List.mem_append.mp h with h | h
    · obtain ⟨i, -, hlt, hi⟩ := below_of_mem_walkItems before path 0 issue h
      have := eq_of_below hbelow hi
      omega
    · rcases List.mem_append.mp h with h | h
      · exact h
      · obtain ⟨i, hle, -, hi⟩ := below_of_mem_walkItems after path _ issue h
        have := eq_of_below hbelow hi
        omega
  · exact absurd hpath.symm (ne_of_below hbelow)

/-- A divisor of unit `1` is supported. -/
theorem mem_of_unsupported {issues : List ValidationIssue} {s t : SymbolSort} {v : Option String}
    (h : ⟨"UNSUPPORTED_UNIT_OPERATION", path, "DIV divisor must be dimensionless"⟩
      ∈ (walkOperation .div path length (issues, [(some t, v), (some s, some "1")])).1) :
    ⟨"UNSUPPORTED_UNIT_OPERATION", path, "DIV divisor must be dimensionless"⟩ ∈ issues := by
  rw [walkOperation_two rfl] at h
  simpa [inferOperation, mem_issueIf] using h

/-- The walks of an operation with the hole below one of its arguments. -/
theorem swapped_argument (ih : Swapped declarations inner wa wb)
    (hbelow : ∀ issue ∈ wa.1, Below (argumentPath path before.length) issue.path)
    (hbelow' : ∀ issue ∈ wb.1, Below (argumentPath path before.length) issue.path) :
    Swapped declarations (.argument operator before inner after)
      (walkOperation operator path length
        ((walkItems declarations before path 0).1 ++ (wa.1
            ++ (walkItems declarations after path (before.length + 1)).1),
          (walkItems declarations before path 0).2 ++ wa.2
            :: (walkItems declarations after path (before.length + 1)).2))
      (walkOperation operator path length
        ((walkItems declarations before path 0).1 ++ (wb.1
            ++ (walkItems declarations after path (before.length + 1)).1),
          (walkItems declarations before path 0).2 ++ wb.2
            :: (walkItems declarations after path (before.length + 1)).2)) := by
  let before' := (walkItems declarations before path 0).2
  let after' := (walkItems declarations after path (before.length + 1)).2
  have hcarries : (Hole.argument operator before inner after).carries declarations = true
      ↔ inner.carries declarations = true ∧ Passes operator before' after' := carries_argument
  have hdivides : (Hole.argument operator before inner after).divides declarations = true
      ↔ inner.divides declarations = true ∨ inner.carries declarations = true
        ∧ IsDivisor operator before' after' := divides_argument
  -- A divisor further down makes the same difference as before.
  have hlift (h : inner.divides declarations = true) : ∃ issue ∈ (walkOperation operator path length
        ((walkItems declarations before path 0).1 ++ (wa.1
            ++ (walkItems declarations after path (before.length + 1)).1),
          before' ++ wa.2 :: after')).1,
      issue ∉ (walkOperation operator path length
        ((walkItems declarations before path 0).1 ++ (wb.1
            ++ (walkItems declarations after path (before.length + 1)).1),
          before' ++ wb.2 :: after')).1 ∧ issue.code = "UNSUPPORTED_UNIT_OPERATION" := by
    obtain ⟨issue, hmem, hnot, hcode⟩ := ih.differs h
    refine ⟨issue, ?_, fun h => hnot (mem_inner_of_mem (hbelow issue hmem) h), hcode⟩
    exact mem_walkOperation_of_mem (List.mem_append_right _ (List.mem_append_left _ hmem))
  cases hinner : inner.carries declarations with
  | false =>
    have hsame : wa.2 = wb.2 := Prod.ext ih.sort (ih.unit hinner)
    have hnot : ¬ inner.carries declarations = true := by rw [hinner]; exact Bool.false_ne_true
    rw [hsame] at hlift ⊢
    refine ⟨congrArg Prod.fst walkOperation_snd, fun h => absurd (hcarries.mp h).1 hnot,
      fun _ => congrArg Prod.snd walkOperation_snd, fun h => ?_, fun h => ?_⟩
    · have hissues := ih.issues (by
        rw [Bool.eq_false_iff]
        exact fun htrue => Bool.eq_false_iff.mp h (hdivides.mpr (.inl htrue)))
      rw [hissues]
    · exact hlift ((hdivides.mp h).resolve_right fun hboth => hnot hboth.1)
  | true =>
    obtain ⟨hsome, hua, hub⟩ := ih.carried hinner
    obtain ⟨s, hs⟩ := Option.isSome_iff_exists.mp hsome
    have ha : wa.2 = (some s, none) := Prod.ext hs hua
    have hb : wb.2 = (some s, some "1") := Prod.ext (ih.sort.symm.trans hs) hub
    rw [ha, hb] at hlift ⊢
    have hsame := walkOperation_sameButUnit operator path length
      ((walkItems declarations before path 0).1 ++ (wa.1
        ++ (walkItems declarations after path (before.length + 1)).1)) before' after' s
    refine ⟨hsame.sort.trans (congrArg Prod.fst walkOperation_snd), fun h => ?_, fun h => ?_,
      fun h => ?_, fun h => ?_⟩
    · obtain ⟨hsome', hnone, hone⟩ := hsame.passed (hcarries.mp h).2
      exact ⟨hsome', hnone, (congrArg Prod.snd walkOperation_snd).trans hone⟩
    · have hnot : ¬ Passes operator before' after' := fun hpasses =>
        Bool.eq_false_iff.mp h (hcarries.mpr ⟨hinner, hpasses⟩)
      exact (hsame.unit hnot).trans (congrArg Prod.snd walkOperation_snd)
    · have hfalse := Bool.eq_false_iff.mp h
      have hissues := ih.issues
        (Bool.eq_false_iff.mpr fun htrue => hfalse (hdivides.mpr (.inl htrue)))
      rw [← hissues]
      exact hsame.issues fun hdivisor => hfalse (hdivides.mpr (.inr ⟨hinner, hdivisor⟩))
    · rcases hdivides.mp h with h | ⟨-, hdivisor⟩
      · exact hlift h
      · refine ⟨_, hsame.differs hdivisor, fun hmem => ?_, rfl⟩
        obtain ⟨rfl, hafter, t, v, hbefore⟩ := hdivisor
        rw [show (walkItems declarations after path (before.length + 1)).2 = [] from hafter,
          show (walkItems declarations before path 0).2 = [(some t, v)] from hbefore] at hmem
        -- The issues of the arguments are not at the path of the division.
        have hitems := mem_of_unsupported hmem
        rcases List.mem_append.mp hitems with hitems | hitems
        · obtain ⟨i, -, -, hi⟩ := below_of_mem_walkItems before path 0 _ hitems
          exact ne_of_below hi rfl
        · rcases List.mem_append.mp hitems with hitems | hitems
          · exact ne_of_below (hbelow' _ hitems) rfl
          · obtain ⟨i, -, -, hi⟩ := below_of_mem_walkItems after path _ _ hitems
            exact ne_of_below hi rfl

end Argument

/-- **Replacement.**  The walks are the same up to the unit of the hole and the divisors. -/
theorem swapped {literal symbol : ASTNode} {s : SymbolSort}
    (hliteral : ∀ path, walk declarations literal path = ([], some s, none))
    (hsymbol : ∀ path, walk declarations' symbol path = ([], some s, some "1")) (hole : Hole)
    (hnames : ∀ name ∈ hole.names,
      declaration? declarations name = declaration? declarations' name) (path : String) :
    Swapped declarations hole (walk declarations (hole.fill literal) path)
      (walk declarations' (hole.fill symbol) path) := by
  induction hole generalizing path with
  | here =>
    rw [Hole.fill, Hole.fill, hliteral, hsymbol]
    exact ⟨rfl, fun _ => ⟨rfl, rfl, rfl⟩, Bool.noConfusion, fun _ => rfl, Bool.noConfusion⟩
  | argument operator before inner after ih =>
    rw [Hole.names, List.forall_mem_append, List.forall_mem_append] at hnames
    obtain ⟨⟨hbefore, hinner⟩, hafter⟩ := hnames
    replace ih := ih hinner (argumentPath path before.length)
    have hwalk (node : ASTNode) (D : List SymbolDeclaration) :
        walk D (.operation operator (before ++ node :: after)) path
          = walkOperation operator path (before ++ node :: after).length
            ((walkItems D before path 0).1 ++ ((walk D node (argumentPath path before.length)).1
                ++ (walkItems D after path (before.length + 1)).1),
              (walkItems D before path 0).2 ++ (walk D node (argumentPath path before.length)).2
                :: (walkItems D after path (before.length + 1)).2) := by
      rw [walk_eq_walkOperation, walkItems_append, walkItems, Nat.zero_add]
    have hlength (node : ASTNode) : (before ++ node :: after).length
        = before.length + (after.length + 1) := by simp
    rw [Hole.fill, Hole.fill, hwalk, hwalk, hlength, hlength,
      ← walkItems_congr before path 0 hbefore, ← walkItems_congr after path _ hafter]
    exact swapped_argument ih (below_of_mem_walk _ _) (below_of_mem_walk _ _)

end Holes

/-! ### Revisions -/

section Revisions

variable {r r' : FormalizationRevision} {hole : Hole} {literal : ASTNode}
  {fresh : SymbolDeclaration}

/-- The issues that are about sorts or units. -/
def isSortOrUnitCode (code : String) : Bool :=
  code = "SORT_MISMATCH" || code = "UNIT_MISMATCH" || code = "UNSUPPORTED_UNIT_OPERATION"
    || code = "NON_BOOLEAN_ROOT"

/-- One occurrence of a numeric literal in `r` is a fresh symbol of its sort and of unit `1` in
    `r'`. -/
structure Replaced (r r' : FormalizationRevision) (hole : Hole) (literal : ASTNode)
    (fresh : SymbolDeclaration) : Prop where
  ast : r.ast = hole.fill literal
  ast' : r'.ast = hole.fill (.symbol fresh.name)
  literalSort : literal.literalSort? = some fresh.sort
  unit : fresh.unit.map Text.text = some "1"
  symbols : ∃ before after, r.symbols = before ++ after ∧ r'.symbols = before ++ fresh :: after
  undeclared : ∀ d ∈ r.symbols, d.name ≠ fresh.name
  unused : fresh.name ∉ hole.names

/-- The revisions have the same issues of sorts and units. -/
def SameIssues (r r' : FormalizationRevision) : Prop :=
  ∀ issue : ValidationIssue, isSortOrUnitCode issue.code = true →
    (issue ∈ (validateRevision r).issues ↔ issue ∈ (validateRevision r').issues)

theorem walk_literal {declarations : List SymbolDeclaration} {s : SymbolSort}
    (h : literal.literalSort? = some s) (path : String) :
    walk declarations literal path = ([], some s, none) := by
  cases literal with
  | integer value =>
    cases h
    rfl
  | real value =>
    cases h
    rfl
  | _ => cases h

theorem Replaced.declaration?_fresh (h : Replaced r r' hole literal fresh) :
    declaration? r'.symbols fresh.name = some fresh := by
  obtain ⟨before, after, hsymbols, hsymbols'⟩ := h.symbols
  have hundeclared := h.undeclared
  rw [hsymbols, List.forall_mem_append] at hundeclared
  rw [declaration?, hsymbols', List.find?_append, List.find?_eq_none.mpr]
  · simp
  · simpa using hundeclared.1

theorem Replaced.declaration?_other (h : Replaced r r' hole literal fresh) {name : SymbolName}
    (hname : name ≠ fresh.name) : declaration? r.symbols name = declaration? r'.symbols name := by
  obtain ⟨before, after, hsymbols, hsymbols'⟩ := h.symbols
  rw [declaration?, declaration?, hsymbols, hsymbols', List.find?_append, List.find?_append,
    List.find?_cons_of_neg]
  simpa using hname.symm

/-- The walks of both formulas. -/
theorem Replaced.swapped (h : Replaced r r' hole literal fresh) :
    Swapped r.symbols hole (walk r.symbols r.ast "ast") (walk r'.symbols r'.ast "ast") := by
  rw [h.ast, h.ast']
  apply Formalization.swapped (walk_literal h.literalSort)
  · intro path
    rw [walk, h.declaration?_fresh]
    exact congrArg (fun unit => ([], some fresh.sort, unit)) h.unit
  · intro name hname
    apply h.declaration?_other
    rintro rfl
    exact h.unused hname

/-- Issues of sorts and units come from the walk and from the sort of the root. -/
theorem mem_issues_sort {issue : ValidationIssue} (hcode : isSortOrUnitCode issue.code = true) :
    issue ∈ (validateRevision r).issues
      ↔ issue ∈ (walk r.symbols r.ast "ast").1
        ∨ issue ∈ issueIf ((walk r.symbols r.ast "ast").2.1.any (· ≠ .boolean))
          "NON_BOOLEAN_ROOT" "ast" "formalization root must be BOOLEAN" := by
  rw [mem_issues]
  constructor
  · rintro (h | h | h | h)
    · rw [code_of_duplicateIssues h] at hcode
      cases hcode
    · exact .inl h
    · exact .inr h
    · rw [(mem_issueIf.mp h).2] at hcode
      cases hcode
  · rintro (h | h)
    · exact .inr (.inl h)
    · exact .inr (.inr (.inl h))

/-- **Literals.**  A literal and a fresh symbol of unit `1` in its place have the same issues of
    sorts and units exactly when the place is no divisor. -/
theorem sameIssues_iff (h : Replaced r r' hole literal fresh) :
    SameIssues r r' ↔ hole.divides r.symbols = false := by
  have hswapped := h.swapped
  constructor
  · intro hsame
    by_contra hdivides
    obtain ⟨issue, hmem, hnot, hcode⟩ := hswapped.differs (by simpa using hdivides)
    have hsort : isSortOrUnitCode issue.code = true := by
      rw [hcode]
      decide
    rcases (mem_issues_sort hsort).mp ((hsame issue hsort).mp
      ((mem_issues_sort hsort).mpr (.inl hmem))) with hmem' | hroot
    · exact hnot hmem'
    · rw [(mem_issueIf.mp hroot).2] at hcode
      revert hcode
      decide
  · intro hdivides issue hsort
    rw [mem_issues_sort hsort, mem_issues_sort hsort, hswapped.issues hdivides, hswapped.sort]

/-- `name`, a real symbol with the unit. -/
def realSymbol (name : SymbolName) (unit : UnitText) : SymbolDeclaration :=
  ⟨name, .real, some unit, .refl true⟩

/-- `node = x` and `x` in metres, with the other symbols. -/
def equation (node : ASTNode) (symbols : List SymbolDeclaration) : FormalizationRevision :=
  .ofAst ⟨"00000000-0000-4000-8000-000000000001", .refl true⟩
    (.operation .eq [node, .symbol ⟨"x", .refl true⟩])
    (realSymbol ⟨"x", .refl true⟩ ⟨"m", by decide⟩ :: symbols)

/-- `x * 2.5 = x` and `x * k = x`. -/
theorem sameIssues_product :
    SameIssues (equation (.operation .mul [.symbol ⟨"x", by decide⟩, .real ⟨"2.5", by decide⟩]) [])
      (equation (.operation .mul [.symbol ⟨"x", by decide⟩, .symbol ⟨"k", by decide⟩])
        [realSymbol ⟨"k", by decide⟩ ⟨"1", by decide⟩]) := by
  have hreplaced : Replaced
      (equation (.operation .mul [.symbol ⟨"x", by decide⟩, .real ⟨"2.5", by decide⟩]) [])
      (equation (.operation .mul [.symbol ⟨"x", by decide⟩, .symbol ⟨"k", by decide⟩])
        [realSymbol ⟨"k", by decide⟩ ⟨"1", by decide⟩])
      (.argument .eq [] (.argument .mul [.symbol ⟨"x", by decide⟩] .here [])
        [.symbol ⟨"x", by decide⟩])
      (.real ⟨"2.5", by decide⟩) (realSymbol ⟨"k", by decide⟩ ⟨"1", by decide⟩) :=
    ⟨rfl, rfl, rfl, rfl, ⟨[realSymbol ⟨"x", by decide⟩ ⟨"m", by decide⟩], [], rfl, rfl⟩,
      by decide, by decide⟩
  exact (sameIssues_iff hreplaced).mpr rfl

/-- `x / 2.5 = x` is rejected for its divisor, and `x / k = x` is not. -/
theorem not_sameIssues : ¬ ∀ (r r' : FormalizationRevision) (hole : Hole) (literal : ASTNode)
    (fresh : SymbolDeclaration), Replaced r r' hole literal fresh → SameIssues r r' := by
  intro h
  have hsame := h
    (equation (.operation .div [.symbol ⟨"x", by decide⟩, .real ⟨"2.5", by decide⟩]) [])
    (equation (.operation .div [.symbol ⟨"x", by decide⟩, .symbol ⟨"k", by decide⟩])
      [realSymbol ⟨"k", by decide⟩ ⟨"1", by decide⟩])
    (.argument .eq [] (.argument .div [.symbol ⟨"x", by decide⟩] .here [])
      [.symbol ⟨"x", by decide⟩])
    (.real ⟨"2.5", by decide⟩) (realSymbol ⟨"k", by decide⟩ ⟨"1", by decide⟩)
    ⟨rfl, rfl, rfl, rfl, ⟨[realSymbol ⟨"x", by decide⟩ ⟨"m", by decide⟩], [], rfl, rfl⟩,
      by decide, by decide⟩
    ⟨"UNSUPPORTED_UNIT_OPERATION", "ast.arguments[0]", "DIV divisor must be dimensionless"⟩ rfl
  revert hsame
  decide +kernel

end Revisions

end Agora.Formalization
