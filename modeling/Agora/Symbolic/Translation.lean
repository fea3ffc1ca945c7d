import Agora.Formalization.Walk
import Agora.Symbolic.Reasoner

namespace Agora.Symbolic

open Formalization Smt

/-!
# The translation keeps the meaning

A translated formula is true in an interpretation exactly when the formula is true under the
assignment that the interpretation makes (`meaning_translateNode`), its conjuncts are asserted one by
one (`flatten_conjuncts`), and it has no boolean constants but declared symbols
(`bools_translateNode`).  Every formula that passes the walk is translated (`translateNode_of_walk`).
-/

/-! ### Interpretations and assignments -/

/-- The values that an interpretation gives to symbols. -/
def assignment (I : Interp) : Assignment where
  bool name := I.bool name.text
  int name := I.int name.text
  real name := I.real name.text

/-- An interpretation that gives symbols their values. -/
noncomputable def interpretation (σ : Assignment) (divZero : ℝ → ℝ) : Interp where
  bool name := ∃ h, σ.bool ⟨name, h⟩
  int name := if h : isSymbolName name = true then σ.int ⟨name, h⟩ else 0
  real name := if h : isSymbolName name = true then σ.real ⟨name, h⟩ else 0
  divZero := divZero

theorem assignment_interpretation (σ : Assignment) (divZero : ℝ → ℝ) :
    assignment (interpretation σ divZero) = σ := by
  cases σ
  simp only [assignment, interpretation, Assignment.mk.injEq]
  refine ⟨funext fun name => ?_, funext fun name => ?_, funext fun name => ?_⟩
  · exact propext ⟨fun ⟨_, h⟩ => h, fun h => ⟨name.isValid, h⟩⟩
  · exact dif_pos name.isValid
  · exact dif_pos name.isValid

/-- The value of a translated expression. -/
noncomputable def Translated.value (I : Interp) : Translated → Value
  | .bool f => .bool (f.Holds I)
  | .num _ a => .num (a.eval I)

/-! ### Symbols -/

section Symbols

variable {declarations : List SymbolDeclaration} {symbols : Symbols}

/-- The dictionary of the declarations. -/
def entries (declarations : List SymbolDeclaration) : Symbols :=
  declarations.map fun declaration => (declaration.name, translateDeclaration declaration)

theorem Symbols.get?_isSome {symbols : Symbols} {name : SymbolName} :
    (symbols.get? name).isSome ↔ name ∈ symbols.map Prod.fst := by
  simp [Symbols.get?, List.find?_isSome]

theorem translateDeclarations_ok {acc : Symbols}
    (hacc : (acc.map Prod.fst).Nodup)
    (h : translateDeclarations declarations acc = .ok symbols) :
    symbols = acc ++ entries declarations ∧ (symbols.map Prod.fst).Nodup := by
  induction declarations generalizing acc with
  | nil =>
    cases h
    exact ⟨(List.append_nil _).symm, hacc⟩
  | cons declaration declarations ih =>
    rw [translateDeclarations] at h
    split at h
    case isTrue => cases h
    case isFalse hnew =>
      rw [Symbols.get?_isSome] at hnew
      obtain ⟨rfl, hnodup⟩ := ih (by
        rw [List.map_append, List.nodup_append_comm]
        exact List.nodup_cons.mpr ⟨hnew, hacc⟩) h
      exact ⟨by rw [entries, List.append_assoc]; rfl, hnodup⟩

/-- Declarations with distinct names are translated. -/
theorem translateDeclarations_of_nodup {acc : Symbols}
    (h : ((acc ++ entries declarations).map Prod.fst).Nodup) :
    translateDeclarations declarations acc = .ok (acc ++ entries declarations) := by
  induction declarations generalizing acc with
  | nil => rw [entries, List.map_nil, List.append_nil]; rfl
  | cons declaration declarations ih =>
    have hsplit : acc ++ entries (declaration :: declarations)
        = acc ++ [(declaration.name, translateDeclaration declaration)] ++ entries declarations := by
      rw [List.append_assoc]
      rfl
    rw [hsplit] at h ⊢
    rw [translateDeclarations, if_neg]
    · exact ih h
    · rw [Symbols.get?_isSome]
      intro hmem
      rw [List.map_append, List.map_append] at h
      have hnodup := (List.nodup_append'.mp (List.nodup_append'.mp h).1).2.2
      exact hnodup hmem (List.mem_singleton_self _)

theorem get?_entries (name : SymbolName) :
    (entries declarations).get? name = (declaration? declarations name).map translateDeclaration := by
  rw [Symbols.get?, entries, declaration?, List.find?_map, Option.map_map]
  rfl

/-- A symbol has the value that its constant has. -/
theorem value_translateDeclaration (I : Interp) (name : SymbolName) :
    symbolValue declarations (assignment I) name
      = ((entries declarations).get? name).map (Translated.value I) := by
  rw [get?_entries, symbolValue, Option.map_map]
  cases hd : declaration? declarations name with
  | none => rfl
  | some declaration =>
    have hname : declaration.name = name := by simpa using List.find?_some hd
    simp only [Option.map_some, Function.comp_apply, Option.some.injEq, ← hname,
      translateDeclaration]
    cases declaration.sort <;> rfl

end Symbols

/-! ### Operations -/

section Operations

variable (I : Interp)

theorem eval_liftReal {s : NumSort} (a : Arith s) : (liftReal a).eval I = a.eval I := by
  cases s <;> rfl

theorem eval_coerce {s t : NumSort} (a : Arith s) (b : Arith t) :
    (coerce a b).2.1.eval I = a.eval I ∧ (coerce a b).2.2.eval I = b.eval I := by
  cases s <;> cases t <;> exact ⟨rfl, rfl⟩

theorem value_arithmetic {op : {s : NumSort} → Arith s → Arith s → Arith s} {f : ℝ → ℝ → ℝ}
    (hop : ∀ {s : NumSort} (a b : Arith s), (op a b).eval I = f (a.eval I) (b.eval I))
    {s t : NumSort} (a : Arith s) (b : Arith t) :
    (arithmetic op a b).value I = .num (f (a.eval I) (b.eval I)) := by
  obtain ⟨ha, hb⟩ := eval_coerce I a b
  show Value.num ((op (coerce a b).2.1 (coerce a b).2.2).eval I) = _
  rw [hop, ha, hb]

theorem holds_comparison {op : {s : NumSort} → Arith s → Arith s → Formula} {r : ℝ → ℝ → Prop}
    (hop : ∀ {s : NumSort} (a b : Arith s), (op a b).Holds I = r (a.eval I) (b.eval I))
    {s t : NumSort} (a : Arith s) (b : Arith t) :
    (comparison op a b).Holds I = r (a.eval I) (b.eval I) := by
  obtain ⟨ha, hb⟩ := eval_coerce I a b
  show (op (coerce a b).2.1 (coerce a b).2.2).Holds I = _
  rw [hop, ha, hb]

theorem combine_translateOperation {operator : Operator} {arguments : List Translated}
    {path : String} {t : Translated} (h : translateOperation operator arguments path = .ok t) :
    combine I.divZero operator (arguments.map (Translated.value I)) = some (t.value I) := by
  unfold translateOperation at h
  split at h <;> cases h
  all_goals simp only [List.map_cons, List.map_nil, Translated.value, combine, Formula.Holds,
    Arith.eval, eval_liftReal]
  case h_9.refl a _ b => exact congrArg some (value_arithmetic I (fun _ _ => rfl) a b).symm
  case h_10.refl a _ b => exact congrArg some (value_arithmetic I (fun _ _ => rfl) a b).symm
  case h_11.refl a _ b => exact congrArg some (value_arithmetic I (fun _ _ => rfl) a b).symm
  all_goals rw [holds_comparison I (fun _ _ => rfl)]

end Operations

/-! ### Formulas -/

section Nodes

variable {declarations : List SymbolDeclaration}

mutual
/-- **Meaning.**  The translation of a formula has the value of the formula. -/
theorem meaning_translateNode (I : Interp) : ∀ {node : ASTNode} {path : String} {t : Translated},
    translateNode (entries declarations) node path = .ok t →
      meaning declarations (assignment I) I.divZero node = some (t.value I)
  | .boolean value, _, _, h | .integer value, _, _, h | .real value, _, _, h => by
    cases h
    rfl
  | .symbol name, _, t, h => by
    rw [translateNode] at h
    rw [meaning, value_translateDeclaration]
    split at h
    case h_1 heq =>
      cases h
      rw [heq]
      rfl
    case h_2 => cases h
  | .operation operator arguments, path, t, h => by
    rw [translateNode] at h
    split at h
    case isTrue => cases h
    case isFalse =>
      obtain ⟨translated, hitems, hoperation⟩ := Except.bind_eq_ok.mp h
      rw [meaning, meaning_translateItems I hitems, Option.bind_some]
      exact combine_translateOperation I hoperation
theorem meaning_translateItems (I : Interp) : ∀ {nodes : List ASTNode} {path : String} {index : ℕ}
    {ts : List Translated}, translateItems (entries declarations) nodes path index = .ok ts →
      meaningItems declarations (assignment I) I.divZero nodes
        = some (ts.map (Translated.value I))
  | [], _, _, _, h => by
    cases h
    rfl
  | node :: nodes, path, index, ts, h => by
    rw [translateItems] at h
    obtain ⟨t, hnode, h⟩ := Except.bind_eq_ok.mp h
    obtain ⟨others, hnodes, h⟩ := Except.bind_eq_ok.mp h
    cases h
    rw [meaningItems, meaning_translateNode I hnode, meaning_translateItems I hnodes]
    rfl
end

/-- A translated formula is true when the formula is. -/
theorem satisfies_translateNode {I : Interp} {node : ASTNode} {path : String} {f : Formula}
    (h : translateNode (entries declarations) node path = .ok (.bool f)) :
    Satisfies declarations (assignment I) I.divZero node ↔ f.Holds I := by
  rw [Satisfies, meaning_translateNode I h]
  simp only [Translated.value, Option.some.injEq, Value.bool.injEq, exists_eq_left']

/-- The names of the declared boolean symbols. -/
def IsBooleanSymbol (declarations : List SymbolDeclaration) (name : String) : Prop :=
  ∃ declaration ∈ declarations, declaration.sort = .boolean ∧ declaration.name.text = name

/-- The boolean constants of a translated expression. -/
def Translated.bools : Translated → List String
  | .bool f => f.bools
  | .num _ _ => []

/-- Comparisons have no boolean constants. -/
theorem bools_comparison {s t : NumSort} (a : Arith s) (b : Arith t) :
    (comparison .eq a b).bools = [] ∧ (comparison .lt a b).bools = []
      ∧ (comparison .le a b).bools = [] ∧ (comparison .gt a b).bools = []
      ∧ (comparison .ge a b).bools = [] :=
  ⟨rfl, rfl, rfl, rfl, rfl⟩

theorem bools_translateOperation {operator : Operator} {arguments : List Translated} {path : String}
    {t : Translated} (h : translateOperation operator arguments path = .ok t) :
    ∀ name ∈ t.bools, ∃ argument ∈ arguments, name ∈ argument.bools := by
  unfold translateOperation at h
  split at h <;> cases h
  all_goals intro name hname
  all_goals simp only [Translated.bools, Formula.bools, List.mem_append, List.not_mem_nil,
    bools_comparison] at hname
  all_goals simp only [List.mem_cons, List.not_mem_nil, or_false, exists_eq_or_imp,
    exists_eq_left, Translated.bools]
  all_goals first | exact hname | cases hname

mutual
/-- A translation has no boolean constants but declared boolean symbols. -/
theorem bools_translateNode : ∀ {node : ASTNode} {path : String} {t : Translated},
    translateNode (entries declarations) node path = .ok t →
      ∀ name ∈ t.bools, IsBooleanSymbol declarations name
  | .boolean _, _, _, h | .integer _, _, _, h | .real _, _, _, h => by
    cases h
    exact List.forall_mem_nil _
  | .symbol name, _, t, h => by
    rw [translateNode] at h
    split at h
    case h_1 translated heq =>
      cases h
      rw [get?_entries, Option.map_eq_some_iff] at heq
      obtain ⟨declaration, hdeclaration, rfl⟩ := heq
      have hmem := List.mem_of_find?_eq_some hdeclaration
      intro constant hconstant
      rw [translateDeclaration] at hconstant
      cases hsort : declaration.sort with
      | boolean =>
        rw [hsort] at hconstant
        rw [List.mem_singleton.mp hconstant]
        exact ⟨declaration, hmem, hsort, rfl⟩
      | integer =>
        rw [hsort] at hconstant
        cases hconstant
      | real =>
        rw [hsort] at hconstant
        cases hconstant
    case h_2 => cases h
  | .operation operator arguments, path, t, h => by
    rw [translateNode] at h
    split at h
    case isTrue => cases h
    case isFalse =>
      obtain ⟨translated, hitems, hoperation⟩ := Except.bind_eq_ok.mp h
      intro name hname
      obtain ⟨argument, hargument, hname⟩ := bools_translateOperation hoperation name hname
      exact bools_translateItems hitems argument hargument name hname
theorem bools_translateItems : ∀ {nodes : List ASTNode} {path : String} {index : ℕ}
    {ts : List Translated}, translateItems (entries declarations) nodes path index = .ok ts →
      ∀ t ∈ ts, ∀ name ∈ t.bools, IsBooleanSymbol declarations name
  | [], _, _, _, h => by
    cases h
    exact List.forall_mem_nil _
  | node :: nodes, path, index, ts, h => by
    rw [translateItems] at h
    obtain ⟨t, hnode, h⟩ := Except.bind_eq_ok.mp h
    obtain ⟨others, hnodes, h⟩ := Except.bind_eq_ok.mp h
    cases h
    exact List.forall_mem_cons.mpr ⟨bools_translateNode hnode, bools_translateItems hnodes⟩
end

/-- An asserted formula is the translation of a conjunct. -/
def Asserts (declarations : List SymbolDeclaration) (a : String × Formula) (c : String × ASTNode) :
    Prop :=
  a.1 = c.1 ∧ translateNode (entries declarations) c.2 c.1 = .ok (.bool a.2)

theorem translateOperation_and {ts : List Translated} {path : String} {f : Formula}
    (h : translateOperation .and ts path = .ok (.bool f)) :
    ∃ g g', ts = [.bool g, .bool g'] ∧ f = .and g g' := by
  unfold translateOperation at h
  split at h <;> cases h
  case h_3.refl g g' _ => exact ⟨g, g', rfl, rfl⟩
  all_goals contradiction

/-- The translation of a conjunction translates its two arguments. -/
theorem translateNode_and {arguments : List ASTNode} {path : String} {f : Formula}
    (h : translateNode (entries declarations) (.operation .and arguments) path = .ok (.bool f)) :
    ∃ node node' g g', arguments = [node, node'] ∧ f = .and g g'
      ∧ translateNode (entries declarations) node (argumentPath path 0) = .ok (.bool g)
      ∧ translateNode (entries declarations) node' (argumentPath path 1) = .ok (.bool g') := by
  rw [translateNode] at h
  split at h
  case isTrue => cases h
  case isFalse harity =>
    obtain ⟨ts, hitems, hoperation⟩ := Except.bind_eq_ok.mp h
    obtain ⟨g, g', rfl, rfl⟩ := translateOperation_and hoperation
    obtain ⟨node, node', rfl⟩ := List.length_eq_two.mp (not_not.mp harity)
    rw [translateItems, translateItems, translateItems] at hitems
    obtain ⟨t, hnode, hitems⟩ := Except.bind_eq_ok.mp hitems
    obtain ⟨ts, hitems, hcons⟩ := Except.bind_eq_ok.mp hitems
    obtain ⟨t', hnode', hitems⟩ := Except.bind_eq_ok.mp hitems
    cases hitems
    cases hcons
    exact ⟨node, node', g, g', rfl, rfl, hnode, hnode'⟩

/-- **Conjuncts.**  The formula is asserted conjunct by conjunct. -/
theorem flatten_conjuncts : ∀ {node : ASTNode} {path : String} {f : Formula},
    translateNode (entries declarations) node path = .ok (.bool f) →
      ∃ l, flatten node f path = some l
        ∧ List.Forall₂ (Asserts declarations) l (conjuncts node path)
        ∧ ∀ I, f.Holds I ↔ ∀ a ∈ l, a.2.Holds I
  | .boolean _, path, f, h | .integer _, path, f, h | .real _, path, f, h | .symbol _, path, f, h =>
    ⟨[(path, f)], rfl, .cons ⟨rfl, h⟩ .nil, fun _ => by rw [List.forall_mem_singleton]⟩
  | .operation operator arguments, path, f, h => by
    rw [flatten, conjuncts]
    by_cases hand : operator = .and
    case neg =>
      rw [if_neg hand, if_neg hand]
      exact ⟨[(path, f)], rfl, .cons ⟨rfl, h⟩ .nil, fun _ => by rw [List.forall_mem_singleton]⟩
    subst hand
    rw [if_pos rfl, if_pos rfl]
    obtain ⟨node, node', g, g', rfl, rfl, hnode, hnode'⟩ := translateNode_and h
    obtain ⟨l, hl, hasserts, hholds⟩ := flatten_conjuncts hnode
    obtain ⟨l', hl', hasserts', hholds'⟩ := flatten_conjuncts hnode'
    refine ⟨l ++ l', ?_, ?_, fun I => ?_⟩
    · simp only [flattenItems, Formula.arg, Option.bind_eq_bind, Option.bind_some, hl, hl',
        Option.pure_def, List.append_nil]
    · rw [conjunctsItems, conjunctsItems, conjunctsItems, List.append_nil]
      exact List.rel_append hasserts hasserts'
    · rw [List.forall_mem_append, ← hholds I, ← hholds' I]
      rfl
termination_by node => sizeOf node

/-! ### Validated formulas are translated -/

/-- The walk tells booleans from numbers as the translation does. -/
def Matches : Translated → SymbolSort → Prop
  | .bool _, s => s = .boolean
  | .num _ _, s => s ≠ .boolean

theorem translateOperation_of_infer {operator : Operator} {path : String} {ts : List Translated}
    {sorts : List SymbolSort} {units : List (Option String)}
    (harity : sorts.length = operator.arity) (hmatches : List.Forall₂ Matches ts sorts)
    (h : (inferOperation operator path sorts units).1 = []) :
    ∃ t, translateOperation operator ts path = .ok t
      ∧ Matches t (inferOperation operator path sorts units).2.1 := by
  match sorts, harity, hmatches with
  | [], harity, _ => cases operator <;> cases harity
  | [s], harity, .cons (a := t) ht .nil =>
    cases operator
    case not =>
      have hs : s = .boolean := by simpa [inferOperation, issueIf_eq_nil] using h
      cases t with
      | bool f => exact ⟨_, rfl, rfl⟩
      | num u a => exact absurd hs ht
    case neg =>
      have hs : s ≠ .boolean := by simpa [inferOperation, issueIf_eq_nil, isNumeric] using h
      cases t with
      | bool f => exact absurd ht hs
      | num u a => exact ⟨_, rfl, hs⟩
    all_goals cases harity
  | [s, s'], harity, .cons (a := t) ht (.cons (a := t') ht' .nil) =>
    have hbool : s = .boolean → s' = .boolean → ∃ f f', t = .bool f ∧ t' = .bool f' := by
      rintro rfl rfl
      cases t <;> cases t' <;> simp_all [Matches]
    have hnum : s ≠ .boolean → s' ≠ .boolean → ∃ u a u' a', t = .num u a ∧ t' = .num u' a' := by
      intro hs hs'
      cases t <;> cases t' <;> simp_all [Matches]
    cases operator
    case not | neg => cases harity
    case and | or =>
      have hs : s = .boolean ∧ s' = .boolean := by
        simpa [inferOperation, issueIf_eq_nil] using h
      obtain ⟨f, f', rfl, rfl⟩ := hbool hs.1 hs.2
      exact ⟨_, rfl, rfl⟩
    case eq | ne =>
      have hs : areComparable [s, s'] = true := by
        have hmismatch := (List.append_eq_nil_iff.mp h).1
        rw [issueIf_eq_nil, Bool.not_eq_false'] at hmismatch
        exact hmismatch
      by_cases hboth : s = .boolean
      · have hs' : s' = .boolean := by simpa [areComparable, hboth, isNumeric, eq_comm] using hs
        obtain ⟨f, f', rfl, rfl⟩ := hbool hboth hs'
        exact ⟨_, rfl, rfl⟩
      · have hs' : s' ≠ .boolean := by
          rintro rfl
          simp [areComparable, hboth, isNumeric] at hs
        obtain ⟨u, a, u', a', rfl, rfl⟩ := hnum hboth hs'
        exact ⟨_, rfl, rfl⟩
    all_goals
      have hnumeric : (!([s, s'].all isNumeric)) = false := by
        first
        | exact issueIf_eq_nil.mp (List.append_eq_nil_iff.mp h).1
        | exact issueIf_eq_nil.mp h
      have hs : s ≠ .boolean ∧ s' ≠ .boolean := by simpa [isNumeric] using hnumeric
      obtain ⟨u, a, u', a', rfl, rfl⟩ := hnum hs.1 hs.2
    case lt | le | gt | ge => exact ⟨_, rfl, rfl⟩
    case mul | div => exact ⟨_, rfl, SymbolSort.noConfusion⟩
    case add | sub =>
      refine ⟨_, rfl, ?_⟩
      show joinSorts [s, s'] ≠ .boolean
      rw [joinSorts]
      split <;> exact SymbolSort.noConfusion
  | _ :: _ :: _ :: _, harity, _ => cases operator <;> cases harity

mutual
/-- **Validated formulas.**  A formula without issues has a sort and is translated. -/
theorem translateNode_of_walk : ∀ {node : ASTNode} {path : String},
    (walk declarations node path).1 = [] →
      ∃ s t, (walk declarations node path).2.1 = some s
        ∧ translateNode (entries declarations) node path = .ok t ∧ Matches t s
  | .boolean _, _, _ => ⟨_, _, rfl, rfl, rfl⟩
  | .integer _, _, _ | .real _, _, _ => ⟨_, _, rfl, rfl, SymbolSort.noConfusion⟩
  | .symbol name, path, h => by
    rw [walk] at h ⊢
    rw [translateNode, get?_entries]
    cases hd : declaration? declarations name with
    | none =>
      rw [hd] at h
      cases h
    | some declaration =>
      refine ⟨declaration.sort, translateDeclaration declaration, rfl, rfl, ?_⟩
      rw [translateDeclaration]
      cases declaration.sort with
      | boolean => rfl
      | integer => exact SymbolSort.noConfusion
      | real => exact SymbolSort.noConfusion
  | .operation operator arguments, path, h => by
    have hissues : arguments.length = operator.arity
        ∧ (walkItems declarations arguments path 0).1 = [] := by
      rw [walk] at h
      have hboth : ∀ {code message : String} {issues : List ValidationIssue},
          issueIf (arguments.length ≠ operator.arity) code path message ++ issues = [] →
            arguments.length = operator.arity ∧ issues = [] := by
        intro code message issues hnil
        obtain ⟨harity, hissues⟩ := List.append_eq_nil_iff.mp hnil
        exact ⟨by simpa using issueIf_eq_nil.mp harity, hissues⟩
      simp only at h
      split at h
      · exact hboth h
      · exact hboth (List.append_eq_nil_iff.mp h).1
    obtain ⟨harity, hitems⟩ := hissues
    obtain ⟨sorts, ts, hsorts, hts, hmatches⟩ := translateItems_of_walk hitems
    rw [walk_operation harity hsorts] at h ⊢
    have hlength : sorts.length = operator.arity := by
      rw [← harity, ← length_walkItems declarations arguments path 0,
        ← List.length_map (f := Prod.fst), hsorts, List.length_map]
    obtain ⟨t, ht, hmatch⟩ :=
      translateOperation_of_infer hlength hmatches (List.append_eq_nil_iff.mp h).2
    refine ⟨_, t, rfl, ?_, hmatch⟩
    rw [translateNode, if_neg (not_not.mpr harity), hts, Except.ok_bind, ht]
theorem translateItems_of_walk : ∀ {nodes : List ASTNode} {path : String} {index : ℕ},
    (walkItems declarations nodes path index).1 = [] →
      ∃ sorts ts, (walkItems declarations nodes path index).2.map Prod.fst = sorts.map some
        ∧ translateItems (entries declarations) nodes path index = .ok ts
        ∧ List.Forall₂ Matches ts sorts
  | [], _, _, _ => ⟨[], [], rfl, rfl, .nil⟩
  | node :: nodes, path, index, h => by
    rw [walkItems] at h ⊢
    obtain ⟨hnode, hnodes⟩ := List.append_eq_nil_iff.mp h
    obtain ⟨s, t, hs, ht, hmatches⟩ := translateNode_of_walk hnode
    obtain ⟨sorts, ts, hsorts, hts, hall⟩ := translateItems_of_walk hnodes
    refine ⟨s :: sorts, t :: ts, ?_, ?_, .cons hmatches hall⟩
    · rw [List.map_cons, List.map_cons, hs, hsorts]
    · rw [translateItems, ht, Except.ok_bind, hts]
      rfl
end

end Nodes

end Agora.Symbolic
