import Agora.Formalization.Units

namespace Agora.Formalization

open Marl (Text)

/-!
# Unit checking as dimensional analysis

`dimension` is the dimension of a node: the exponent vector of a product is the sum of the exponent
vectors.  The validator compares units as they are written, factor by factor.  Dimensions that
differ are never written alike, so that every real mismatch is reported; equal dimensions may be
written in several ways, and then a mismatch is reported that is none.  `dimensionsChecked_iff` says
exactly when the reports are those of dimensional analysis.
-/

/-! ### The dimension of a node, and its declared units -/

/-- The dimension of an operation.  A sum has that of its first operand that has one. -/
noncomputable def operationDimension : Operator → List Dimension → Dimension
  | .neg, [d] => d
  | .add, [d, d'] | .sub, [d, d'] => open Classical in if d = 0 then d' else d
  | .mul, [d, d'] => d + d'
  | .div, [d, d'] => d - d'
  | _, _ => 0

/-- The declared units that make up the unit of an operation. -/
def operationUnits : Operator → List (List String) → List String
  | .neg, [units] => units
  | .add, [units, others] | .sub, [units, others] => if units = [] then others else units
  | .mul, [units, others] => units ++ others
  | .div, [units, _] => units
  | _, _ => []

section Analysis

variable (declarations : List SymbolDeclaration)

mutual
/-- The dimension of a node.  Literals have none. -/
noncomputable def ASTNode.dimension : ASTNode → Dimension
  | .boolean _ | .integer _ | .real _ => 0
  | .symbol name =>
    ((declaration? declarations name).bind (·.unit)).elim 0 fun unit => dimensionOf unit.text
  | .operation operator arguments => operationDimension operator (ASTNode.dimensions arguments)
noncomputable def ASTNode.dimensions : List ASTNode → List Dimension
  | [] => []
  | node :: nodes => node.dimension :: ASTNode.dimensions nodes
end

mutual
/-- The declared units other than `1` that make up the unit of a node. -/
def ASTNode.declaredUnits : ASTNode → List String
  | .boolean _ | .integer _ | .real _ => []
  | .symbol name =>
    ((declaration? declarations name).bind (·.unit)).elim [] fun unit =>
      if unit.text = "1" then [] else [unit.text]
  | .operation operator arguments => operationUnits operator (ASTNode.declaredUnitsItems arguments)
def ASTNode.declaredUnitsItems : List ASTNode → List (List String)
  | [] => []
  | node :: nodes => node.declaredUnits :: ASTNode.declaredUnitsItems nodes
end

end Analysis

/-! ### The units of the walk -/

theorem effectiveUnits_pair (u u' : Option String) : effectiveUnits [u, u']
    = (u.filter (· ≠ "1")).toList ++ (u'.filter (· ≠ "1")).toList := by
  rw [effectiveUnits, List.filterMap_cons, List.filterMap_cons, List.filterMap_nil]
  cases u.filter (· ≠ "1") <;> cases u'.filter (· ≠ "1") <;> rfl

theorem getD_filter (u : Option String) : (u.filter (· ≠ "1")).getD "1" = u.getD "1" := by
  cases u with
  | none => rfl
  | some unit => by_cases hone : unit = "1" <;> simp [Option.filter, hone]

section Written

variable {units others : List String}

theorem writtenUnit?_of_ne_nil (h : units ≠ []) :
    writtenUnit? units = some (joinWith "*" (writtenFactors units)) := if_neg h

theorem writtenUnit?_eq_none : writtenUnit? units = none ↔ units = [] := by
  rw [writtenUnit?]
  split <;> simp_all

theorem filter_getD_written (h : ∀ unit ∈ units, ProperUnit unit) :
    (some ((writtenUnit? units).getD "1")).filter (· ≠ "1") = writtenUnit? units := by
  by_cases hnil : units = []
  · rw [writtenUnit?_eq_none.mpr hnil]
    rfl
  · rw [writtenUnit?_of_ne_nil hnil]
    simp [Option.filter, written_ne_one hnil h]

theorem unitMultiply_getD (h : ∀ unit ∈ units, ProperUnit unit)
    (h' : ∀ unit ∈ others, ProperUnit unit) :
    unitMultiply ((writtenUnit? units).getD "1") ((writtenUnit? others).getD "1")
      = (writtenUnit? (units ++ others)).getD "1" := by
  by_cases hnil : units = []
  · rw [hnil, List.nil_append, writtenUnit?_eq_none.mpr rfl, unitMultiply,
      Option.getD_none, if_pos rfl]
  · have hone := written_ne_one hnil h
    by_cases hnil' : others = []
    · rw [hnil', List.append_nil, writtenUnit?_eq_none.mpr rfl, writtenUnit?_of_ne_nil hnil,
        unitMultiply, Option.getD_some, if_neg hone, Option.getD_none, if_pos rfl]
    · have happend : units ++ others ≠ [] := fun hboth => hnil (List.append_eq_nil_iff.mp hboth).1
      rw [writtenUnit?_of_ne_nil hnil, writtenUnit?_of_ne_nil hnil', writtenUnit?_of_ne_nil happend]
      exact unitMultiply_written hnil hnil' hone (written_ne_one hnil' h')

theorem headD_written : ((writtenUnit? units).toList ++ (writtenUnit? others).toList).headD "1"
    = (writtenUnit? (if units = [] then others else units)).getD "1" := by
  by_cases hnil : units = []
  · rw [if_pos hnil, writtenUnit?_eq_none.mpr hnil]
    cases writtenUnit? others <;> rfl
  · rw [if_neg hnil, writtenUnit?_of_ne_nil hnil]
    rfl

/-- Units differ when both operands have one and the factors are written differently. -/
theorem unitsDiffer_written :
    unitsDiffer ((writtenUnit? units).toList ++ (writtenUnit? others).toList) = true
      ↔ units ≠ [] ∧ others ≠ [] ∧ writtenFactors units ≠ writtenFactors others := by
  by_cases hnil : units = []
  · rw [writtenUnit?_eq_none.mpr hnil]
    cases writtenUnit? others <;> simp [unitsDiffer, hnil]
  · by_cases hnil' : others = []
    · rw [writtenUnit?_eq_none.mpr hnil']
      cases writtenUnit? units <;> simp [unitsDiffer, hnil']
    · rw [writtenUnit?_of_ne_nil hnil, writtenUnit?_of_ne_nil hnil']
      rw [ne_eq (writtenFactors units), ← joinWith_written_inj hnil hnil']
      by_cases heq : joinWith "*" (writtenFactors units) = joinWith "*" (writtenFactors others)
      · simp [unitsDiffer, heq]
      · simp [unitsDiffer, heq, hnil, hnil', List.dedup_cons_of_notMem]

end Written

section Units

variable {declarations : List SymbolDeclaration} {operator : Operator} {x y : ASTNode}
  {s s' : SymbolSort} {u u' : Option String}

/-- What the walk knows of the unit of a node: the product of its declared units, as written. -/
structure Unitwise (declarations : List SymbolDeclaration) (node : ASTNode) (s : SymbolSort)
    (u : Option String) : Prop where
  unit : u.filter (· ≠ "1") = writtenUnit? (node.declaredUnits declarations)
  proper : ∀ unit ∈ node.declaredUnits declarations, ProperUnit unit
  boolean : s = .boolean → u = none

theorem Unitwise.getD (h : Unitwise declarations x s u) :
    u.getD "1" = (writtenUnit? (x.declaredUnits declarations)).getD "1" := by
  rw [← h.unit, getD_filter]

theorem Unitwise.declaredUnits_eq_nil (h : Unitwise declarations x s u) (hu : u = none) :
    x.declaredUnits declarations = [] := by
  rw [← writtenUnit?_eq_none, ← h.unit, hu]
  rfl

theorem declaredUnits_unary : (ASTNode.operation operator [x]).declaredUnits declarations
    = operationUnits operator [x.declaredUnits declarations] := by
  rw [ASTNode.declaredUnits, ASTNode.declaredUnitsItems, ASTNode.declaredUnitsItems]

theorem declaredUnits_binary : (ASTNode.operation operator [x, y]).declaredUnits declarations
    = operationUnits operator [x.declaredUnits declarations, y.declaredUnits declarations] := by
  rw [ASTNode.declaredUnits, ASTNode.declaredUnitsItems, ASTNode.declaredUnitsItems,
    ASTNode.declaredUnitsItems]

theorem unitwise_symbol {name : SymbolName} {d : SymbolDeclaration}
    (hd : declaration? declarations name = some d) :
    Unitwise declarations (.symbol name) d.sort (d.unit.map Text.text) := by
  have hunits : (ASTNode.symbol name).declaredUnits declarations
      = d.unit.elim [] fun unit => if unit.text = "1" then [] else [unit.text] := by
    rw [ASTNode.declaredUnits, hd]
    rfl
  have hvalid := d.valid_unit
  cases hunit : d.unit with
  | none =>
    rw [hunit] at hunits
    exact ⟨by rw [hunits]; rfl, by rw [hunits]; exact List.forall_mem_nil _, fun _ => rfl⟩
  | some unit =>
    rw [hunit] at hunits hvalid
    have hnumeric : d.sort ≠ .boolean := by simpa using hvalid
    by_cases hone : unit.text = "1"
    · rw [Option.elim_some, if_pos hone] at hunits
      refine ⟨?_, by rw [hunits]; exact List.forall_mem_nil _, fun h => absurd h hnumeric⟩
      rw [hunits, Option.map_some, hone]
      rfl
    · rw [Option.elim_some, if_neg hone] at hunits
      refine ⟨?_, ?_, fun h => absurd h hnumeric⟩
      · rw [hunits, writtenUnit?_of_ne_nil (List.cons_ne_nil _ _), writtenFactors,
          joinWith_unitFactors]
        simp [Option.filter, hone]
      · rw [hunits, List.forall_mem_singleton]
        exact properUnit_of_isUnit unit.isValid hone

theorem joinSorts_ne_boolean (sorts : List SymbolSort) : joinSorts sorts ≠ .boolean := by
  rw [joinSorts]
  split <;> exact SymbolSort.noConfusion

/-- The unit of an operation on one operand. -/
theorem unitwise_unary (harity : operator.arity = 1) (h : Unitwise declarations x s u)
    (path : String) : Unitwise declarations (.operation operator [x])
      (inferOperation operator path [s] [u]).2.1 (inferOperation operator path [s] [u]).2.2 := by
  cases operator <;> cases harity
  case not => exact ⟨rfl, List.forall_mem_nil _, fun _ => rfl⟩
  case neg =>
    have hunits : (ASTNode.operation .neg [x]).declaredUnits declarations
        = x.declaredUnits declarations := declaredUnits_unary
    exact ⟨by rw [hunits]; exact h.unit, by rw [hunits]; exact h.proper, h.boolean⟩

/-- The unit of an operation on two operands. -/
theorem unitwise_binary (harity : operator.arity = 2) (h : Unitwise declarations x s u)
    (h' : Unitwise declarations y s' u') (path : String) :
    Unitwise declarations (.operation operator [x, y])
      (inferOperation operator path [s, s'] [u, u']).2.1
      (inferOperation operator path [s, s'] [u, u']).2.2 := by
  have hunits : (ASTNode.operation operator [x, y]).declaredUnits declarations
      = operationUnits operator [x.declaredUnits declarations, y.declaredUnits declarations] :=
    declaredUnits_binary
  have hboth : ∀ unit ∈ x.declaredUnits declarations ++ y.declaredUnits declarations,
      ProperUnit unit := List.forall_mem_append.mpr ⟨h.proper, h'.proper⟩
  have hfirst : ∀ unit ∈ if x.declaredUnits declarations = [] then y.declaredUnits declarations
      else x.declaredUnits declarations, ProperUnit unit := by
    split
    · exact h'.proper
    · exact h.proper
  cases operator <;> cases harity
  case add | sub =>
    refine ⟨?_, by rw [hunits]; exact hfirst, fun hs => absurd hs (joinSorts_ne_boolean _)⟩
    show (some ((effectiveUnits [u, u']).headD "1")).filter (· ≠ "1") = _
    rw [effectiveUnits_pair, h.unit, h'.unit, headD_written, hunits]
    exact filter_getD_written hfirst
  case mul =>
    refine ⟨?_, by rw [hunits]; exact hboth, SymbolSort.noConfusion⟩
    show (some (unitMultiply (u.getD "1") (u'.getD "1"))).filter (· ≠ "1") = _
    rw [h.getD, h'.getD, unitMultiply_getD h.proper h'.proper, hunits]
    exact filter_getD_written hboth
  case div =>
    exact ⟨by rw [hunits]; exact h.unit, by rw [hunits]; exact h.proper, SymbolSort.noConfusion⟩
  all_goals exact ⟨by rw [hunits]; rfl, by rw [hunits]; exact List.forall_mem_nil _, fun _ => rfl⟩

/-- **Units of the walk.**  The unit of a node is the product of its declared units. -/
theorem unitwise : ∀ node : ASTNode, node.wellFormed declarations = true → ∀ {s u},
    node.inferred declarations = (some s, u) → Unitwise declarations node s u := by
  have hleaf {s : SymbolSort} {u : Option String} {s' : SymbolSort} {node : ASTNode}
      (hnode : Unitwise declarations node s none) (h : (some s, none) = (some s', u)) :
      Unitwise declarations node s' u := by
    cases h
    exact hnode
  apply wellFormed_induction
  · exact fun _ _ _ => hleaf ⟨rfl, List.forall_mem_nil _, fun _ => rfl⟩
  · exact fun _ _ _ => hleaf ⟨rfl, List.forall_mem_nil _, fun _ => rfl⟩
  · exact fun _ _ _ => hleaf ⟨rfl, List.forall_mem_nil _, fun _ => rfl⟩
  · intro name d hd s u h
    rw [ASTNode.inferred, walk, hd] at h
    cases h
    exact unitwise_symbol hd
  · intro operator x harity hx ih s u h
    obtain ⟨t, v, hinferred⟩ := exists_inferred hx
    rw [ASTNode.inferred, walk_unary harity hinferred] at h
    cases h
    exact unitwise_unary harity (ih hinferred) _
  · intro operator x y harity hx hy ih ih' s u h
    obtain ⟨t, v, hinferred⟩ := exists_inferred hx
    obtain ⟨t', v', hinferred'⟩ := exists_inferred hy
    rw [ASTNode.inferred, walk_binary harity hinferred hinferred'] at h
    cases h
    exact unitwise_binary harity (ih hinferred) (ih' hinferred') _

end Units

/-! ### Mismatches -/

/-- Operators whose operands must have equal units. -/
def Operator.comparesUnits : Operator → Bool
  | .add | .sub | .eq | .ne | .lt | .le | .gt | .ge => true
  | _ => false

/-- Both products have units, and their factors are written differently. -/
def WrittenApart (units others : List String) : Prop :=
  units ≠ [] ∧ others ≠ [] ∧ writtenFactors units ≠ writtenFactors others

/-- Both dimensions are not trivial, and they differ. -/
def DimensionsDiffer (d d' : Dimension) : Prop := d ≠ 0 ∧ d' ≠ 0 ∧ d ≠ d'

section Mismatches

variable {declarations : List SymbolDeclaration} {operator : Operator} {x y : ASTNode}
  {path : String}

theorem exists_mismatch {condition condition' : Bool} {sortMessage message : String} :
    (∃ text, ⟨"UNIT_MISMATCH", path, text⟩ ∈ issueIf condition "SORT_MISMATCH" path sortMessage
      ++ issueIf condition' "UNIT_MISMATCH" path message) ↔ condition' = true := by
  simp [mem_issueIf]

/-- **Mismatches of the code.**  A node that compares units reports a mismatch when the units of its
    operands are written differently. -/
theorem mismatch_iff (hcompares : operator.comparesUnits = true)
    (hx : x.wellFormed declarations = true) (hy : y.wellFormed declarations = true) :
    (∃ message, ⟨"UNIT_MISMATCH", path, message⟩
        ∈ foundIssues declarations (path, .operation operator [x, y]))
      ↔ WrittenApart (x.declaredUnits declarations) (y.declaredUnits declarations) := by
  obtain ⟨s, u, hs⟩ := exists_inferred hx
  obtain ⟨s', u', hs'⟩ := exists_inferred hy
  have hu := unitwise x hx hs
  have hu' := unitwise y hy hs'
  have hdiffer : unitsDiffer (effectiveUnits [u, u']) = true
      ↔ WrittenApart (x.declaredUnits declarations) (y.declaredUnits declarations) := by
    rw [effectiveUnits_pair, hu.unit, hu'.unit, unitsDiffer_written]
    rfl
  rw [foundIssues_binary hs hs']
  cases operator <;> cases hcompares
  case add | sub | lt | le | gt | ge => exact exists_mismatch.trans hdiffer
  case eq | ne =>
    refine exists_mismatch.trans ?_
    rw [Bool.and_eq_true, hdiffer, and_iff_right_iff_imp]
    -- An operand that is not numeric has no unit.
    rintro ⟨hne, hne', -⟩
    have hnumeric : s ≠ .boolean := fun h => hne (hu.declaredUnits_eq_nil (hu.boolean h))
    have hnumeric' : s' ≠ .boolean := fun h => hne' (hu'.declaredUnits_eq_nil (hu'.boolean h))
    simp [isNumeric, hnumeric, hnumeric']

/-- Where units are compared, products are written differently just when their dimensions are not
    trivial and differ. -/
def ChecksDimensions (declarations : List SymbolDeclaration) (ns : List (String × ASTNode)) :
    Prop :=
  ∀ path operator x y, (path, ASTNode.operation operator [x, y]) ∈ ns →
    operator.comparesUnits = true →
    (WrittenApart (x.declaredUnits declarations) (y.declaredUnits declarations)
      ↔ DimensionsDiffer (x.dimension declarations) (y.dimension declarations))

/-- Where units are compared, products that are written differently have dimensions that are not
    trivial and differ. -/
def WritesAlike (declarations : List SymbolDeclaration) (ns : List (String × ASTNode)) : Prop :=
  ∀ path operator x y, (path, ASTNode.operation operator [x, y]) ∈ ns →
    operator.comparesUnits = true →
    WrittenApart (x.declaredUnits declarations) (y.declaredUnits declarations) →
    DimensionsDiffer (unitsDimension (x.declaredUnits declarations))
      (unitsDimension (y.declaredUnits declarations))

theorem dimension_unary : (ASTNode.operation operator [x]).dimension declarations
    = operationDimension operator [x.dimension declarations] := by
  rw [ASTNode.dimension, ASTNode.dimensions, ASTNode.dimensions]

theorem dimension_binary : (ASTNode.operation operator [x, y]).dimension declarations
    = operationDimension operator [x.dimension declarations, y.dimension declarations] := by
  rw [ASTNode.dimension, ASTNode.dimensions, ASTNode.dimensions, ASTNode.dimensions]

theorem unitsDimension_singleton {unit : String} (hone : unit ≠ "1") :
    unitsDimension [unit] = dimensionOf unit := by
  rw [dimensionOf, if_neg hone, unitsDimension, List.flatMap_singleton]

theorem dimension_symbol {name : SymbolName} {d : SymbolDeclaration}
    (hd : declaration? declarations name = some d) :
    (ASTNode.symbol name).dimension declarations
      = unitsDimension ((ASTNode.symbol name).declaredUnits declarations) := by
  rw [ASTNode.dimension, ASTNode.declaredUnits, hd, Option.bind_some]
  cases d.unit with
  | none => rfl
  | some unit =>
    rw [Option.elim_some, Option.elim_some]
    by_cases hone : unit.text = "1"
    · rw [if_pos hone, hone]
      rfl
    · rw [if_neg hone, unitsDimension_singleton hone]

/-- A sum has the dimension of its declared units, unless it compares a product with one of a
    trivial dimension. -/
theorem dimension_sum {d d' : Dimension} {units others : List String}
    (h : d = unitsDimension units) (h' : d' = unitsDimension others)
    (hapart : WrittenApart units others → DimensionsDiffer d d') :
    operationDimension .add [d, d'] = unitsDimension (if units = [] then others else units) := by
  show (open Classical in if d = 0 then d' else d) = _
  by_cases hnil : units = []
  · have hd : d = 0 := by
      rw [h, hnil]
      rfl
    rw [if_pos hd, if_pos hnil, h']
  · rw [if_neg hnil]
    by_cases hd : d = 0
    · rw [if_pos hd, ← h, hd]
      by_cases hnil' : others = []
      · rw [h', hnil']
        rfl
      · -- The products are written alike, or the first one would not be trivial.
        have hwritten : writtenFactors units = writtenFactors others := by
          by_contra hne
          exact (hapart ⟨hnil, hnil', hne⟩).1 hd
        rw [h', ← unitsDimension_eq_of_written hwritten, ← h, hd]
    · rw [if_neg hd, h]

theorem ChecksDimensions.mono {ns ms : List (String × ASTNode)}
    (h : ChecksDimensions declarations ns) (hsub : ∀ m ∈ ms, m ∈ ns) :
    ChecksDimensions declarations ms :=
  fun path operator x y hmem => h path operator x y (hsub _ hmem)

theorem WritesAlike.mono {ns ms : List (String × ASTNode)} (h : WritesAlike declarations ns)
    (hsub : ∀ m ∈ ms, m ∈ ns) : WritesAlike declarations ms :=
  fun path operator x y hmem => h path operator x y (hsub _ hmem)

/-- The divisors are written `1`. -/
def DivisorsAreOne (declarations : List SymbolDeclaration) (ns : List (String × ASTNode)) : Prop :=
  ∀ path x y, (path, ASTNode.operation .div [x, y]) ∈ ns → y.declaredUnits declarations = []

/-- **Dimensions.**  When the comparisons are those of dimensional analysis, or when products are
    written alike, the dimension of a node is that of its declared units. -/
theorem dimension_eq : ∀ node : ASTNode, node.wellFormed declarations = true → ∀ path,
    DivisorsAreOne declarations (nodes node path) →
    ChecksDimensions declarations (nodes node path) ∨ WritesAlike declarations (nodes node path) →
    node.dimension declarations = unitsDimension (node.declaredUnits declarations) := by
  apply wellFormed_induction
  · exact fun _ _ _ _ => rfl
  · exact fun _ _ _ _ => rfl
  · exact fun _ _ _ _ => rfl
  · exact fun name d hd _ _ _ => dimension_symbol hd
  · intro operator x harity hx ih path hdivisors hchecks
    have hsub : ∀ m ∈ nodes x (argumentPath path 0), m ∈ nodes (.operation operator [x]) path := by
      rw [nodes_unary]
      exact fun m hm => List.mem_cons_of_mem _ hm
    have hx' := ih _ (fun p z w hmem => hdivisors p z w (hsub _ hmem))
      (hchecks.imp (·.mono hsub) (·.mono hsub))
    rw [dimension_unary, declaredUnits_unary]
    cases operator <;> cases harity
    case unary.not.refl => rfl
    case unary.neg.refl => exact hx'
  · intro operator x y harity hx hy ih ih' path hdivisors hchecks
    have hroot : (path, ASTNode.operation operator [x, y])
        ∈ nodes (.operation operator [x, y]) path := by
      rw [nodes_binary]
      exact List.mem_cons_self
    have hsub : ∀ m ∈ nodes x (argumentPath path 0),
        m ∈ nodes (.operation operator [x, y]) path := by
      rw [nodes_binary]
      exact fun m hm => List.mem_cons_of_mem _ (List.mem_append_left _ hm)
    have hsub' : ∀ m ∈ nodes y (argumentPath path 1),
        m ∈ nodes (.operation operator [x, y]) path := by
      rw [nodes_binary]
      exact fun m hm => List.mem_cons_of_mem _ (List.mem_append_right _ hm)
    have hx' := ih _ (fun p z w hmem => hdivisors p z w (hsub _ hmem))
      (hchecks.imp (·.mono hsub) (·.mono hsub))
    have hy' := ih' _ (fun p z w hmem => hdivisors p z w (hsub' _ hmem))
      (hchecks.imp (·.mono hsub') (·.mono hsub'))
    have hapart (hcompares : operator.comparesUnits = true)
        (hw : WrittenApart (x.declaredUnits declarations) (y.declaredUnits declarations)) :
        DimensionsDiffer (x.dimension declarations) (y.dimension declarations) := by
      rcases hchecks with hchecks | hwrites
      · exact (hchecks _ _ _ _ hroot hcompares).mp hw
      · rw [hx', hy']
        exact hwrites _ _ _ _ hroot hcompares hw
    rw [dimension_binary, declaredUnits_binary]
    cases operator <;> cases harity
    case binary.add.refl | binary.sub.refl => exact dimension_sum hx' hy' (hapart rfl)
    case binary.mul.refl =>
      show x.dimension declarations + y.dimension declarations = unitsDimension (_ ++ _)
      rw [unitsDimension_append, hx', hy']
    case binary.div.refl =>
      have hone := hdivisors path x y hroot
      show x.dimension declarations - y.dimension declarations = unitsDimension _
      rw [hy', hone, hx']
      exact sub_zero _
    all_goals rfl

/-- **Written units.**  The comparisons are those of dimensional analysis exactly when products that
    are written differently have different dimensions that are not trivial. -/
theorem checksDimensions_iff {node : ASTNode} (hwell : node.wellFormed declarations = true)
    (hdivisors : DivisorsAreOne declarations (nodes node path)) :
    ChecksDimensions declarations (nodes node path)
      ↔ WritesAlike declarations (nodes node path) := by
  have hdimension (hboth : ChecksDimensions declarations (nodes node path)
      ∨ WritesAlike declarations (nodes node path)) {p : String} {operator : Operator}
      {x y : ASTNode}
      (hmem : (p, ASTNode.operation operator [x, y]) ∈ nodes node path) :
      x.dimension declarations = unitsDimension (x.declaredUnits declarations)
        ∧ y.dimension declarations = unitsDimension (y.declaredUnits declarations) := by
    obtain ⟨hwell', hsub⟩ := nodes_trans node hwell path _ hmem
    obtain ⟨-, hx, hy⟩ := wellFormed_binary.mp hwell'
    have hsubx : ∀ m ∈ nodes x (argumentPath p 0), m ∈ nodes node path := fun m hm =>
      hsub m (by rw [nodes_binary]; exact List.mem_cons_of_mem _ (List.mem_append_left _ hm))
    have hsuby : ∀ m ∈ nodes y (argumentPath p 1), m ∈ nodes node path := fun m hm =>
      hsub m (by rw [nodes_binary]; exact List.mem_cons_of_mem _ (List.mem_append_right _ hm))
    exact ⟨dimension_eq x hx _ (fun p z w hm => hdivisors p z w (hsubx _ hm))
        (hboth.imp (·.mono hsubx) (·.mono hsubx)),
      dimension_eq y hy _ (fun p z w hm => hdivisors p z w (hsuby _ hm))
        (hboth.imp (·.mono hsuby) (·.mono hsuby))⟩
  constructor
  · intro hchecks p operator x y hmem hcompares hapart
    obtain ⟨hx, hy⟩ := hdimension (.inl hchecks) hmem
    rw [← hx, ← hy]
    exact (hchecks p operator x y hmem hcompares).mp hapart
  · intro hwrites p operator x y hmem hcompares
    obtain ⟨hx, hy⟩ := hdimension (.inr hwrites) hmem
    rw [hx, hy]
    refine ⟨hwrites p operator x y hmem hcompares, ?_⟩
    -- Different dimensions are not written alike, and a trivial product has none.
    rintro ⟨hne, hne', hdiffer⟩
    refine ⟨?_, ?_, fun hwritten => hdiffer (unitsDimension_eq_of_written hwritten)⟩
    · rintro hnil
      exact hne (by rw [hnil]; rfl)
    · rintro hnil
      exact hne' (by rw [hnil]; rfl)

end Mismatches

/-! ### Revisions -/

section Revisions

variable {r : FormalizationRevision}

/-- The revision has no issue but mismatches of units. -/
def OnlyUnitMismatches (r : FormalizationRevision) : Prop :=
  ∀ issue ∈ (validateRevision r).issues, issue.code = "UNIT_MISMATCH"

/-- A mismatch of units is reported where units are compared just when both operands have dimensions
    that are not trivial and differ. -/
def DimensionsChecked (r : FormalizationRevision) : Prop :=
  ∀ path operator x y, (path, ASTNode.operation operator [x, y]) ∈ nodes r.ast "ast" →
    operator.comparesUnits = true →
    ((∃ message, ⟨"UNIT_MISMATCH", path, message⟩ ∈ (validateRevision r).issues)
      ↔ DimensionsDiffer (x.dimension r.symbols) (y.dimension r.symbols))

theorem wellFormed_of_onlyUnitMismatches (h : OnlyUnitMismatches r) :
    r.ast.wellFormed r.symbols = true := by
  have hcodes : ∀ issue ∈ (walk r.symbols r.ast "ast").1,
      issue.code ≠ "WRONG_ARITY" ∧ issue.code ≠ "UNDECLARED_SYMBOL" := by
    intro issue hissue
    rw [h issue (mem_issues.mpr (.inr (.inl hissue)))]
    decide
  exact wellFormed_of_walk hcodes

theorem code_of_duplicateIssues {symbols : List SymbolDeclaration} {seen : List SymbolName}
    {index : ℕ} {issue : ValidationIssue} (h : issue ∈ duplicateIssues symbols seen index) :
    issue.code = "DUPLICATE_SYMBOL" := by
  induction symbols generalizing seen index with
  | nil => cases h
  | cons symbol symbols ih =>
    rw [duplicateIssues, List.mem_append, mem_issueIf] at h
    rcases h with ⟨-, rfl⟩ | h
    · rfl
    · exact ih h

/-- Issues of the nodes come from the walk alone. -/
theorem mem_issues_of_node {code path message : String} (hwell : r.ast.wellFormed r.symbols = true)
    {node : ASTNode} (hnode : (path, node) ∈ nodes r.ast "ast")
    (hcode : code ≠ "DUPLICATE_SYMBOL" ∧ code ≠ "NON_BOOLEAN_ROOT"
      ∧ code ≠ "NONCANONICAL_RENDERING") :
    ⟨code, path, message⟩ ∈ (validateRevision r).issues
      ↔ ⟨code, path, message⟩ ∈ foundIssues r.symbols (path, node) := by
  rw [mem_issues, mem_walk r.ast hwell]
  constructor
  · rintro (h | ⟨n, hn, h⟩ | h | h)
    · exact absurd (code_of_duplicateIssues h) hcode.1
    · have hpath := path_of_foundIssues h
      rwa [nodes_inj r.ast hwell "ast" _ hnode n hn hpath]
    · exact absurd (congrArg ValidationIssue.code (mem_issueIf.mp h).2) hcode.2.1
    · exact absurd (congrArg ValidationIssue.code (mem_issueIf.mp h).2) hcode.2.2
  · exact fun h => .inr (.inl ⟨_, hnode, h⟩)

theorem divisorsAreOne (h : OnlyUnitMismatches r) :
    DivisorsAreOne r.symbols (nodes r.ast "ast") := by
  intro path x y hmem
  have hwell := wellFormed_of_onlyUnitMismatches h
  obtain ⟨-, hx, hy⟩ := wellFormed_binary.mp (nodes_trans r.ast hwell "ast" _ hmem).1
  obtain ⟨s, u, hs⟩ := exists_inferred hx
  obtain ⟨s', u', hs'⟩ := exists_inferred hy
  have hu' := unitwise y hy hs'
  by_contra hne
  -- A divisor with a unit is an issue of another kind.
  have hissue : ⟨"UNSUPPORTED_UNIT_OPERATION", path, "DIV divisor must be dimensionless"⟩
      ∈ (validateRevision r).issues := by
    rw [mem_issues_of_node hwell hmem (by decide), foundIssues_binary hs hs']
    refine List.mem_append_right _ (mem_issueIf.mpr ⟨?_, rfl⟩)
    apply decide_eq_true
    rintro (hone : u' = some "1")
    have hunit := hu'.unit
    rw [hone, writtenUnit?_of_ne_nil hne] at hunit
    cases hunit
  have hcode : "UNSUPPORTED_UNIT_OPERATION" = "UNIT_MISMATCH" := h _ hissue
  revert hcode
  decide

/-- **Dimensional analysis.**  Without other issues the unit checks are those of dimensional
    analysis exactly when, wherever units are compared, products that are written differently have
    dimensions that are not trivial and differ. -/
theorem dimensionsChecked_iff (r : FormalizationRevision) (h : OnlyUnitMismatches r) :
    DimensionsChecked r ↔ WritesAlike r.symbols (nodes r.ast "ast") := by
  have hwell := wellFormed_of_onlyUnitMismatches h
  rw [← checksDimensions_iff hwell (divisorsAreOne h)]
  have hreport {path : String} {operator : Operator} {x y : ASTNode}
      (hmem : (path, ASTNode.operation operator [x, y]) ∈ nodes r.ast "ast")
      (hcompares : operator.comparesUnits = true) :
      (∃ message, ⟨"UNIT_MISMATCH", path, message⟩ ∈ (validateRevision r).issues)
        ↔ WrittenApart (x.declaredUnits r.symbols) (y.declaredUnits r.symbols) := by
    obtain ⟨-, hx, hy⟩ := wellFormed_binary.mp (nodes_trans r.ast hwell "ast" _ hmem).1
    have hnode (message : String) : ⟨"UNIT_MISMATCH", path, message⟩ ∈ (validateRevision r).issues
        ↔ ⟨"UNIT_MISMATCH", path, message⟩
          ∈ foundIssues r.symbols (path, .operation operator [x, y]) :=
      mem_issues_of_node hwell hmem (by decide)
    exact (exists_congr hnode).trans (mismatch_iff hcompares hx hy)
  constructor
  · intro hchecked path operator x y hmem hcompares
    rw [← hreport hmem hcompares]
    exact hchecked path operator x y hmem hcompares
  · intro hchecks path operator x y hmem hcompares
    rw [hreport hmem hcompares]
    exact hchecks path operator x y hmem hcompares

/-- `x = y` for two real symbols with these units. -/
def comparison (unit unit' : UnitText) : FormalizationRevision :=
  .ofAst ⟨"00000000-0000-4000-8000-000000000001", .refl true⟩
    (.operation .eq [.symbol ⟨"x", by decide⟩, .symbol ⟨"y", by decide⟩])
    [⟨⟨"x", by decide⟩, .real, some unit, rfl⟩, ⟨⟨"y", by decide⟩, .real, some unit', rfl⟩]

/-- Metres and seconds differ for the code as they do for dimensional analysis. -/
theorem dimensionsChecked_metres_seconds :
    DimensionsChecked (comparison ⟨"m", by decide⟩ ⟨"s", by decide⟩) := by
  have honly : OnlyUnitMismatches (comparison ⟨"m", by decide⟩ ⟨"s", by decide⟩) := by
    unfold OnlyUnitMismatches
    decide +kernel
  apply (dimensionsChecked_iff _ honly).mpr
  intro path operator x y hmem hcompares hapart
  have hm : unitsDimension ["m"] "m" = 1 := by decide +kernel
  have hs : unitsDimension ["s"] "s" = 1 := by decide +kernel
  have hsm : unitsDimension ["s"] "m" = 0 := by decide +kernel
  rcases List.mem_cons.mp hmem with heq | hmem
  · cases heq
    refine ⟨fun h => ?_, fun h => ?_, fun h => ?_⟩
    · exact absurd ((congrFun h "m").symm.trans hm) (by decide)
    · exact absurd ((congrFun h "s").symm.trans hs) (by decide)
    · exact absurd (hm.symm.trans ((congrFun h "m").trans hsm)) (by decide)
  · rcases List.mem_cons.mp hmem with heq | hmem
    · cases heq
    · cases List.mem_singleton.mp hmem

/-- A unit and the same product in another order: a mismatch of equal dimensions is reported. -/
theorem not_dimensionsChecked :
    ¬ ∀ r : FormalizationRevision, OnlyUnitMismatches r → DimensionsChecked r := by
  intro h
  have honly : OnlyUnitMismatches (comparison ⟨"m*s", by decide⟩ ⟨"s*m", by decide⟩) := by
    unfold OnlyUnitMismatches
    decide +kernel
  have hchecked := h _ honly "ast" .eq _ _ List.mem_cons_self rfl
  have hreported : ⟨"UNIT_MISMATCH", "ast", "equality operands require equal units"⟩
      ∈ (validateRevision (comparison ⟨"m*s", by decide⟩ ⟨"s*m", by decide⟩)).issues := by
    decide +kernel
  obtain ⟨-, -, hdiffer⟩ := hchecked.mp ⟨_, hreported⟩
  apply hdiffer
  show dimensionOf "m*s" = dimensionOf "s*m"
  have hfactors : unitFactors "m*s" = ["m", "s"] := by decide
  have hfactors' : unitFactors "s*m" = ["s", "m"] := by decide
  rw [dimensionOf, dimensionOf, if_neg (by decide), if_neg (by decide), hfactors, hfactors']
  exact productDimension_perm (List.Perm.swap "s" "m" [])

end Revisions

end Agora.Formalization
