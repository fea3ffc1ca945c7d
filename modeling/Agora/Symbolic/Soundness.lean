import Agora.Symbolic.Witness

namespace Agora.Symbolic

open Formalization Smt
open Marl (Text)

/-!
# When evaluation is sound

The solver is assumed to be correct.  A witness then satisfies the formula.  A core contradicts
itself unless a declared boolean has the name of a label: `Fits` is what the labels ask of such
symbols, and `sound_iff_labelsHarmless` says that the answers are sound exactly when this asks for
nothing that the conjuncts do not.
-/

/-! ### Queries -/

theorem mem_label {l : List (String × Formula)} {a : TrackedAssertion} :
    a ∈ label l ↔ ∃ i : ℕ, l[i]? = some (a.path, a.formula) ∧ a.label = assertionLabel i := by
  rw [label, List.mem_mapIdx]
  constructor
  · rintro ⟨i, hi, rfl⟩
    exact ⟨i, List.getElem?_eq_getElem hi, rfl⟩
  · rintro ⟨i, hi, hlabel⟩
    obtain ⟨hlt, hget⟩ := List.getElem?_eq_some_iff.mp hi
    refine ⟨i, hlt, ?_⟩
    rw [hget, ← hlabel]

theorem mem_pairs {l : List (String × Formula)} {e : String × Formula} :
    e ∈ pairs l ↔ ∃ (i : ℕ) (p : String), l[i]? = some (p, e.2) ∧ e.1 = assertionLabel i := by
  rw [pairs, List.mem_map]
  constructor
  · rintro ⟨a, ha, rfl⟩
    obtain ⟨i, hi, hlabel⟩ := mem_label.mp ha
    exact ⟨i, a.path, hi, hlabel⟩
  · rintro ⟨i, p, hi, hlabel⟩
    exact ⟨⟨p, e.1, e.2⟩, mem_label.mpr ⟨i, hi, hlabel⟩, rfl⟩

theorem assertionLabel_injective : Function.Injective assertionLabel := by
  intro i j h
  have htext : "agora_assertion_".toList ++ (toString i).toList
      = "agora_assertion_".toList ++ (toString j).toList := by
    rw [← String.toList_append, ← String.toList_append]
    exact congrArg String.toList h
  have hdigits := List.append_cancel_left htext
  rw [Nat.toString_eq_repr, Nat.toString_eq_repr, Nat.toList_repr, Nat.toList_repr] at hdigits
  have hvalue := congrArg digitsValue hdigits
  rwa [digitsValue, digitsValue, Nat.ofDigitChars_ten_toDigits, Nat.ofDigitChars_ten_toDigits]
    at hvalue

/-- Values under which the chosen conjuncts are true, and under which a declared boolean with the
    name of a label is true where the conjunct is chosen, and true only where the conjunct is. -/
structure Fits (declarations : List SymbolDeclaration) (cs : List (String × ASTNode))
    (chosen : List ℕ) (σ : Assignment) (divZero : ℝ → ℝ) : Prop where
  satisfies : ∀ i ∈ chosen, ∀ c, cs[i]? = some c → Satisfies declarations σ divZero c.2
  labels : ∀ (i : ℕ) (c : String × ASTNode), cs[i]? = some c → ∀ declaration ∈ declarations,
    declaration.sort = .boolean → declaration.name.text = assertionLabel i →
      (i ∈ chosen → σ.bool declaration.name)
        ∧ (σ.bool declaration.name → Satisfies declarations σ divZero c.2)

section Query

variable {declarations : List SymbolDeclaration} {l : List (String × Formula)}
  {cs : List (String × ASTNode)} (hasserts : List.Forall₂ (Asserts declarations) l cs)
include hasserts

theorem getElem?_asserts (i : ℕ) : Option.Rel (Asserts declarations) l[i]? cs[i]? := by
  induction hasserts generalizing i with
  | nil => exact .none
  | cons hac _ ih =>
    cases i with
    | zero => exact .some hac
    | succ i => exact ih i

theorem exists_conjunct {i : ℕ} {a : String × Formula} (ha : l[i]? = some a) :
    ∃ c, cs[i]? = some c ∧ Asserts declarations a c := by
  have hrel := getElem?_asserts hasserts i
  rw [ha] at hrel
  cases hc : cs[i]? with
  | none =>
    rw [hc] at hrel
    cases hrel
  | some c =>
    rw [hc] at hrel
    cases hrel with
    | some hac => exact ⟨c, rfl, hac⟩

theorem exists_assertion {i : ℕ} {c : String × ASTNode} (hc : cs[i]? = some c) :
    ∃ a, l[i]? = some a ∧ Asserts declarations a c := by
  have hrel := getElem?_asserts hasserts i
  rw [hc] at hrel
  cases ha : l[i]? with
  | none =>
    rw [ha] at hrel
    cases hrel
  | some a =>
    rw [ha] at hrel
    cases hrel with
    | some hac => exact ⟨a, rfl, hac⟩

/-- **Queries.**  The labels of some conjuncts can be assumed exactly when some values fit. -/
theorem sat_query_iff {chosen : List ℕ} (hchosen : ∀ i ∈ chosen, i < l.length) :
    Sat (tracked (pairs l) ++ (chosen.map assertionLabel).map .const)
      ↔ ∃ σ divZero, Fits declarations cs chosen σ divZero := by
  have hown : ∀ e ∈ pairs l, ∀ name ∈ e.2.bools, IsBooleanSymbol declarations name := by
    intro e he
    obtain ⟨i, p, hi, -⟩ := mem_pairs.mp he
    obtain ⟨c, -, -, htranslate⟩ := exists_conjunct hasserts hi
    exact bools_translateNode htranslate
  have hlabels : chosen.map assertionLabel ⊆ (pairs l).map Prod.fst := by
    intro name hname
    obtain ⟨i, hi, rfl⟩ := List.mem_map.mp hname
    have hlt := hchosen i hi
    have hget := List.getElem?_eq_getElem hlt
    exact List.mem_map.mpr ⟨(assertionLabel i, l[i].2), mem_pairs.mpr ⟨i, l[i].1, hget, rfl⟩, rfl⟩
  have hmem (i : ℕ) : assertionLabel i ∈ chosen.map assertionLabel ↔ i ∈ chosen :=
    List.mem_map_of_injective assertionLabel_injective
  rw [sat_tracked_iff hown hlabels]
  constructor
  · rintro ⟨I, hholds, hclash⟩
    have hsatisfies {c : String × ASTNode} {a : String × Formula}
        (hac : Asserts declarations a c) (h : a.2.Holds I) :
        Satisfies declarations (assignment I) I.divZero c.2 :=
      (satisfies_translateNode hac.2).mpr h
    refine ⟨assignment I, I.divZero, fun i hi c hc => ?_, fun i c hc declaration hd hsort hname => ?_⟩
    · obtain ⟨a, ha, hac⟩ := exists_assertion hasserts hc
      exact hsatisfies hac
        (hholds (assertionLabel i, a.2) (mem_pairs.mpr ⟨i, a.1, ha, rfl⟩) ((hmem i).mpr hi))
    · obtain ⟨a, ha, hac⟩ := exists_assertion hasserts hc
      obtain ⟨htrue, hconjunct⟩ := hclash (assertionLabel i, a.2) (mem_pairs.mpr ⟨i, a.1, ha, rfl⟩)
        ⟨declaration, hd, hsort, hname⟩
      have hbool : (assignment I).bool declaration.name = I.bool (assertionLabel i) := by
        rw [← hname]
        rfl
      rw [hbool]
      exact ⟨fun hi => htrue ((hmem i).mpr hi), fun h => hsatisfies hac (hconjunct h)⟩
  · rintro ⟨σ, divZero, hfits⟩
    have hholds {p : String} {f : Formula} {c : String × ASTNode}
        (hac : Asserts declarations (p, f) c) (h : Satisfies declarations σ divZero c.2) :
        f.Holds (interpretation σ divZero) := by
      refine (satisfies_translateNode hac.2).mp ?_
      rw [assignment_interpretation]
      exact h
    refine ⟨interpretation σ divZero, fun e he hlabel => ?_, fun e he hsymbol => ?_⟩
    · obtain ⟨i, p, hi, hlabel'⟩ := mem_pairs.mp he
      obtain ⟨c, hc, hac⟩ := exists_conjunct hasserts hi
      rw [hlabel', hmem] at hlabel
      exact hholds hac (hfits.satisfies i hlabel c hc)
    · obtain ⟨i, p, hi, hlabel⟩ := mem_pairs.mp he
      obtain ⟨c, hc, hac⟩ := exists_conjunct hasserts hi
      obtain ⟨declaration, hd, hsort, hname⟩ := hsymbol
      obtain ⟨htrue, hconjunct⟩ := hfits.labels i c hc declaration hd hsort (hname.trans hlabel)
      have hbool : (interpretation σ divZero).bool e.1 ↔ σ.bool declaration.name := by
        rw [← hname]
        exact ⟨fun ⟨_, h⟩ => h, fun h => ⟨declaration.name.isValid, h⟩⟩
      rw [hbool, hlabel, hmem]
      exact ⟨htrue, fun h => hholds hac (hconjunct h)⟩

end Query

/-! ### Cores -/

section Cores

variable {l : List (String × Formula)} {core : List Formula}

/-- The labels of a list of positions. -/
def labelsAt (chosen : List ℕ) : List Formula := (chosen.map assertionLabel).map .const

theorem filterMap_declName (chosen : List ℕ) :
    (labelsAt chosen).filterMap declName = chosen.map assertionLabel := by
  rw [labelsAt, List.filterMap_map]
  exact List.filterMap_some

/-- A core is made of the labels of some positions. -/
theorem exists_labelsAt (h : core ⊆ (label l).map fun a => .const a.label) :
    ∃ chosen : List ℕ, (∀ i ∈ chosen, i < l.length) ∧ core = labelsAt chosen := by
  induction core with
  | nil => exact ⟨[], List.forall_mem_nil _, rfl⟩
  | cons f core ih =>
    obtain ⟨hf, hcore⟩ := List.cons_subset.mp h
    obtain ⟨a, ha, rfl⟩ := List.mem_map.mp hf
    obtain ⟨i, hi, hlabel⟩ := mem_label.mp ha
    obtain ⟨chosen, hchosen, rfl⟩ := ih hcore
    refine ⟨i :: chosen, List.forall_mem_cons.mpr ⟨?_, hchosen⟩, ?_⟩
    · exact (List.getElem?_eq_some_iff.mp hi).1
    · rw [hlabel]
      rfl

theorem map_path_label : (label l).map (·.path) = l.map Prod.fst := by
  refine List.ext_getElem? fun i => ?_
  rw [label, List.getElem?_map, List.getElem?_mapIdx, List.getElem?_map, Option.map_map]
  rfl

theorem mem_corePaths {chosen : List ℕ} {path : String} :
    path ∈ corePaths (labelsAt chosen) (label l) ↔ ∃ i ∈ chosen, ∃ f, l[i]? = some (path, f) := by
  rw [corePaths, List.mem_insertionSort, filterMap_declName, List.mem_map]
  constructor
  · rintro ⟨a, ha, rfl⟩
    obtain ⟨hmem, hselected⟩ := List.mem_filter.mp ha
    obtain ⟨i, hi, hlabel⟩ := mem_label.mp hmem
    rw [hlabel, decide_eq_true_iff, List.mem_map_of_injective assertionLabel_injective] at hselected
    exact ⟨i, hselected, a.formula, hi⟩
  · rintro ⟨i, hi, f, hget⟩
    refine ⟨⟨path, assertionLabel i, f⟩, List.mem_filter.mpr ⟨mem_label.mpr ⟨i, hget, rfl⟩, ?_⟩, rfl⟩
    exact decide_eq_true (List.mem_map_of_mem hi)

theorem coreMembers_ok {assertions : List TrackedAssertion} {members : List SymbolicCoreMember}
    (h : coreMembers core assertions = .ok members) :
    members.map Text.text = corePaths core assertions := by
  rw [coreMembers] at h
  split at h
  case isTrue => cases h
  case isFalse =>
    have hmap : members.map Text.text = (corePaths core assertions).map id := by
      refine Except.map_eq_of_mapM (fun path member hmember => ?_) h
      split at hmember
      · cases hmember
        rfl
      · cases hmember
    rwa [List.map_id] at hmap

theorem exists_coreMembers {assertions : List TrackedAssertion}
    (hne : corePaths core assertions ≠ [])
    (hpaths : ∀ path ∈ corePaths core assertions, isAstPath path = true) :
    ∃ members, coreMembers core assertions = .ok members := by
  rw [coreMembers, if_neg hne]
  revert hpaths
  generalize corePaths core assertions = paths
  intro hpaths
  induction paths with
  | nil => exact ⟨[], rfl⟩
  | cons path paths ih =>
    obtain ⟨hpath, hrest⟩ := List.forall_mem_cons.mp hpaths
    obtain ⟨members, hmembers⟩ := ih hrest
    refine ⟨⟨path, hpath⟩ :: members, ?_⟩
    rw [List.mapM_cons, dif_pos hpath, Except.ok_bind, hmembers]
    rfl

theorem pairwise_corePaths {assertions : List TrackedAssertion}
    (hnodup : (assertions.map (·.path)).Nodup) :
    (corePaths core assertions).Pairwise (· < ·) := by
  have hsorted := List.pairwise_insertionSort (· ≤ ·)
    ((assertions.filter (·.label ∈ core.filterMap declName)).map (·.path))
  have hdistinct : (corePaths core assertions).Nodup :=
    (List.perm_insertionSort _ _).nodup_iff.mpr
      (hnodup.sublist (List.Sublist.map _ List.filter_sublist))
  exact (hsorted.and hdistinct).imp fun h => lt_of_le_of_ne h.1 h.2

end Cores

/-! ### Validated revisions -/

/-- What a revision has that passes validation. -/
structure Wellformed (revision : FormalizationRevision) : Prop where
  nodup : (revision.symbols.map (·.name)).Nodup
  walked : (walk revision.symbols revision.ast "ast").1 = []
  root : (walk revision.symbols revision.ast "ast").2.1.all (· = .boolean) = true
  rendering : revision.canonicalRendering = renderAst revision.ast

theorem wellformed_of_success {revision : FormalizationRevision}
    (h : (validateRevision revision).success = true) : Wellformed revision := by
  obtain ⟨hnodup, hwalked, hroot, hrendering⟩ := success_iff.mp h
  exact ⟨hnodup, hwalked, hroot, hrendering⟩

/-- **Translation.**  A validated revision is translated. -/
theorem exists_translation {revision : FormalizationRevision}
    (h : (validateRevision revision).success = true) :
    ∃ f, validateBoundary revision = .ok ()
      ∧ translateDeclarations revision.symbols [] = .ok (entries revision.symbols)
      ∧ translateNode (entries revision.symbols) revision.ast "ast" = .ok (.bool f) := by
  have hwell := wellformed_of_success h
  obtain ⟨s, t, hs, ht, hmatches⟩ := translateNode_of_walk hwell.walked
  have hboolean : s = .boolean := by simpa [hs] using hwell.root
  have hnames : (([] ++ entries revision.symbols).map Prod.fst).Nodup := by
    rw [List.nil_append, entries, List.map_map]
    exact hwell.nodup
  cases t with
  | bool f =>
    refine ⟨f, ?_, translateDeclarations_of_nodup hnames, ht⟩
    simp only [validateBoundary, revision.coherent_revision, hwell.rendering, h, ne_eq,
      not_true_eq_false, if_false]
  | num u a => exact absurd hboolean hmatches

theorem isArguments_append {xs ys : List Char} (hxs : isArguments xs = true)
    (hys : isArguments ys = true) : isArguments (xs ++ ys) = true := by
  fun_induction isArguments xs with
  | case1 => exact hys
  | case2 d rest ih =>
    rw [Bool.and_eq_true] at hxs
    show ((d = '0' || d = '1') && isArguments (rest ++ ys)) = true
    rw [hxs.1, ih hxs.2, Bool.and_self]
  | case3 => cases hxs

theorem isAstPath_argumentPath {path : String} {index : ℕ} (hindex : index < 2)
    (h : isAstPath path = true) : isAstPath (argumentPath path index) = true := by
  have hargument : isArguments (".arguments[".toList ++ (toString index).toList ++ [']']) = true := by
    obtain rfl | rfl : index = 0 ∨ index = 1 := by omega
    · decide
    · decide
  rw [isAstPath] at h ⊢
  split at h
  case h_1 rest hpath =>
    rw [toList_argumentPath, hpath, List.append_assoc, List.append_assoc, ← List.append_assoc _ _ [']']]
    exact isArguments_append h hargument
  case h_2 => cases h

/-- The paths of the conjuncts of a translated formula are paths of the port. -/
theorem isAstPath_conjuncts {declarations : List SymbolDeclaration} :
    ∀ {node : ASTNode} {path : String} {f : Formula}, isAstPath path = true →
      translateNode (entries declarations) node path = .ok (.bool f) →
        ∀ c ∈ conjuncts node path, isAstPath c.1 = true
  | .boolean _, _, _, hpath, _ | .integer _, _, _, hpath, _ | .real _, _, _, hpath, _
  | .symbol _, _, _, hpath, _ => List.forall_mem_singleton.mpr hpath
  | .operation operator arguments, path, f, hpath, h => by
    rw [conjuncts]
    by_cases hand : operator = .and
    case neg =>
      rw [if_neg hand]
      exact List.forall_mem_singleton.mpr hpath
    subst hand
    rw [if_pos rfl]
    obtain ⟨node, node', g, g', rfl, rfl, hnode, hnode'⟩ := translateNode_and h
    rw [conjunctsItems, conjunctsItems, conjunctsItems, List.append_nil, List.forall_mem_append]
    exact ⟨isAstPath_conjuncts (isAstPath_argumentPath (by decide) hpath) hnode,
      isAstPath_conjuncts (isAstPath_argumentPath (by decide) hpath) hnode'⟩
termination_by node => sizeOf node

/-! ### Answers -/

namespace Z3SymbolicReasoner

variable {r : Z3SymbolicReasoner} {revision : FormalizationRevision}
  {result : SymbolicReasoningResult}

/-- What an evaluation goes through. -/
theorem evaluate_ok (h : r.evaluate revision = .ok result) :
    ∃ f l, ((entries revision.symbols).map Prod.fst).Nodup
      ∧ translateNode (entries revision.symbols) revision.ast "ast" = .ok (.bool f)
      ∧ flatten revision.ast f "ast" = some l
      ∧ ((∃ m, r.ask l = .sat m ∧ witness m (entries revision.symbols) = .ok result.witness
            ∧ result.status = .sat)
        ∨ (∃ core, r.ask l = .unsat core ∧ coreMembers core (label l) = .ok result.unsatCore
            ∧ result.status = .unsat)
        ∨ result.status = .unknown) := by
  obtain ⟨-, -, hafter⟩ := Except.bind_eq_ok.mp h
  obtain ⟨symbols, hsymbols, hafter⟩ := Except.bind_eq_ok.mp hafter
  obtain ⟨hentries, hnodup⟩ :=
    translateDeclarations_ok (show (List.map Prod.fst ([] : Symbols)).Nodup from List.nodup_nil)
      hsymbols
  rw [List.nil_append] at hentries
  subst hentries
  obtain ⟨t, ht, hafter⟩ := Except.bind_eq_ok.mp hafter
  obtain ⟨f, hf, hafter⟩ := Except.bind_eq_ok.mp hafter
  obtain ⟨answer, hanswer, hafter⟩ := Except.bind_eq_ok.mp hafter
  have hbool : t = .bool f := by
    cases t with
    | bool g =>
      cases hf
      rfl
    | num s a => cases hf
  have hresult : result = r.result revision answer := by
    split at hafter
    · cases hafter
      rfl
    · cases hafter
  subst hbool hresult
  refine ⟨f, ?_⟩
  rw [solve] at hanswer
  cases hl : flatten revision.ast f "ast" with
  | none =>
    rw [hl] at hanswer
    cases hanswer
  | some l =>
    refine ⟨l, hnodup, ht, rfl, ?_⟩
    simp only [hl] at hanswer
    cases hask : r.ask l with
    | sat m =>
      rw [hask] at hanswer
      obtain ⟨bindings, hbindings, hanswer⟩ := Except.bind_eq_ok.mp hanswer
      cases hanswer
      exact .inl ⟨m, rfl, hbindings, rfl⟩
    | unsat core =>
      rw [hask] at hanswer
      obtain ⟨members, hmembers, hanswer⟩ := Except.bind_eq_ok.mp hanswer
      cases hanswer
      exact .inr (.inl ⟨core, rfl, hmembers, rfl⟩)
    | unknown reason =>
      rw [hask] at hanswer
      cases hanswer
      exact .inr (.inr rfl)
    | unrecognized | raised =>
      rw [hask] at hanswer
      cases hanswer

end Z3SymbolicReasoner

/-! ### Soundness -/

section Conjuncts

variable {declarations : List SymbolDeclaration} {l : List (String × Formula)}
  {cs : List (String × ASTNode)}

theorem forall_holds_iff (hasserts : List.Forall₂ (Asserts declarations) l cs) (I : Interp) :
    (∀ a ∈ l, a.2.Holds I)
      ↔ ∀ c ∈ cs, Satisfies declarations (assignment I) I.divZero c.2 := by
  induction hasserts with
  | nil => exact ⟨fun _ => List.forall_mem_nil _, fun _ => List.forall_mem_nil _⟩
  | cons hac _ ih =>
    rw [List.forall_mem_cons, List.forall_mem_cons, ih, satisfies_translateNode hac.2]

theorem map_path_asserts (hasserts : List.Forall₂ (Asserts declarations) l cs) :
    l.map Prod.fst = cs.map Prod.fst := by
  induction hasserts with
  | nil => rfl
  | cons hac _ ih => rw [List.map_cons, List.map_cons, hac.1, ih]

/-- A formula is true when its conjuncts are. -/
theorem satisfies_iff_conjuncts {node : ASTNode} {path : String} {f : Formula} {σ : Assignment}
    {divZero : ℝ → ℝ} (h : translateNode (entries declarations) node path = .ok (.bool f)) :
    Satisfies declarations σ divZero node
      ↔ ∀ c ∈ conjuncts node path, Satisfies declarations σ divZero c.2 := by
  obtain ⟨l, -, hasserts, hholds⟩ := flatten_conjuncts h
  have hformula := satisfies_translateNode (I := interpretation σ divZero) h
  have hconjuncts := forall_holds_iff hasserts (interpretation σ divZero)
  rw [assignment_interpretation] at hformula hconjuncts
  exact hformula.trans ((hholds _).trans hconjuncts)

/-- The conjuncts at the paths of a core are those at its positions. -/
theorem mem_corePaths_iff (hasserts : List.Forall₂ (Asserts declarations) l cs)
    (hnodup : (cs.map Prod.fst).Nodup) {chosen : List ℕ} {c : String × ASTNode} :
    c ∈ cs ∧ c.1 ∈ corePaths (labelsAt chosen) (label l) ↔ ∃ i ∈ chosen, cs[i]? = some c := by
  rw [mem_corePaths]
  constructor
  · rintro ⟨hc, i, hi, f, hget⟩
    obtain ⟨c', hc', hpath, -⟩ := exists_conjunct hasserts hget
    have heq : c = c' :=
      List.inj_on_of_nodup_map hnodup hc (List.mem_of_getElem? hc') hpath
    exact ⟨i, hi, heq ▸ hc'⟩
  · rintro ⟨i, hi, hc⟩
    obtain ⟨a, ha, hpath, -⟩ := exists_assertion hasserts hc
    exact ⟨List.mem_of_getElem? hc, i, hi, a.2, hpath ▸ ha⟩

/-- The conjuncts at some positions are true. -/
def SatisfiesAt (declarations : List SymbolDeclaration) (cs : List (String × ASTNode))
    (chosen : List ℕ) (σ : Assignment) (divZero : ℝ → ℝ) : Prop :=
  ∀ i ∈ chosen, ∀ c, cs[i]? = some c → Satisfies declarations σ divZero c.2

/-- Nothing is asked of no conjuncts. -/
theorem fits_nil (declarations : List SymbolDeclaration) (cs : List (String × ASTNode)) :
    ∃ σ divZero, Fits declarations cs [] σ divZero :=
  ⟨⟨fun _ => False, fun _ => 0, fun _ => 0⟩, fun _ => 0, List.forall_mem_nil _,
    fun _ _ _ _ _ _ _ => ⟨fun h => absurd h List.not_mem_nil, False.elim⟩⟩

end Conjuncts

/-- The conjuncts that a result reports. -/
def reported (revision : FormalizationRevision) (result : SymbolicReasoningResult) : List ASTNode :=
  ((conjuncts revision.ast "ast").filter (·.1 ∈ result.unsatCore.map Text.text)).map Prod.snd

/-- What a result says is true.  A witness has values of the declared symbols, and with these the
    formula is true.  Where there is a core the formula is never true, and already the conjuncts of
    the core are not. -/
structure Sound (revision : FormalizationRevision) (result : SymbolicReasoningResult) : Prop where
  sat : result.status = .sat → ∃ divZero,
    (∃ σ, Witnesses revision.symbols result.witness σ)
      ∧ ∀ σ, Witnesses revision.symbols result.witness σ →
        Satisfies revision.symbols σ divZero revision.ast
  unsat : result.status = .unsat →
    ∀ σ divZero, ¬ Satisfies revision.symbols σ divZero revision.ast
  core : result.status = .unsat →
    (∀ member ∈ result.unsatCore, member.text ∈ (conjuncts revision.ast "ast").map Prod.fst)
      ∧ ¬ Satisfiable revision.symbols (reported revision result)

/-- Conjuncts that can be true together can be so with values that fit the labels. -/
def LabelsHarmless (revision : FormalizationRevision) : Prop :=
  ∀ chosen : List ℕ, (∀ i ∈ chosen, i < (conjuncts revision.ast "ast").length) →
    (∃ σ divZero, SatisfiesAt revision.symbols (conjuncts revision.ast "ast") chosen σ divZero) →
      ∃ σ divZero, Fits revision.symbols (conjuncts revision.ast "ast") chosen σ divZero

/-- Labels are harmless where no declared boolean has the name of a label. -/
theorem labelsHarmless_of_names {revision : FormalizationRevision}
    (h : ∀ i < (conjuncts revision.ast "ast").length, ∀ declaration ∈ revision.symbols,
      declaration.sort = .boolean → declaration.name.text ≠ assertionLabel i) :
    LabelsHarmless revision := by
  rintro chosen - ⟨σ, divZero, hsatisfies⟩
  refine ⟨σ, divZero, hsatisfies, fun i c hc declaration hd hsort hname => ?_⟩
  exact absurd hname (h i (List.getElem?_eq_some_iff.mp hc).1 declaration hd hsort)

section Revisions

variable {r : Z3SymbolicReasoner} {revision : FormalizationRevision}
  {result : SymbolicReasoningResult}

/-- The conjuncts that are reported are those at the positions of the core. -/
theorem satisfiable_reported {l : List (String × Formula)} {chosen : List ℕ}
    (hasserts : List.Forall₂ (Asserts revision.symbols) l (conjuncts revision.ast "ast"))
    (hpaths : result.unsatCore.map Text.text = corePaths (labelsAt chosen) (label l)) :
    Satisfiable revision.symbols (reported revision result)
      ↔ ∃ σ divZero, SatisfiesAt revision.symbols (conjuncts revision.ast "ast") chosen σ divZero := by
  have hmem (node : ASTNode) : node ∈ reported revision result
      ↔ ∃ i ∈ chosen, ∃ c, (conjuncts revision.ast "ast")[i]? = some c ∧ c.2 = node := by
    rw [reported, hpaths, List.mem_map]
    constructor
    · rintro ⟨c, hc, rfl⟩
      obtain ⟨hc, hpath⟩ := List.mem_filter.mp hc
      obtain ⟨i, hi, hget⟩ :=
        (mem_corePaths_iff hasserts (nodup_paths _ _)).mp ⟨hc, of_decide_eq_true hpath⟩
      exact ⟨i, hi, c, hget, rfl⟩
    · rintro ⟨i, hi, c, hget, rfl⟩
      obtain ⟨hc, hpath⟩ := (mem_corePaths_iff hasserts (nodup_paths _ _)).mpr ⟨i, hi, hget⟩
      exact ⟨c, List.mem_filter.mpr ⟨hc, decide_eq_true hpath⟩, rfl⟩
  refine exists_congr fun σ => exists_congr fun divZero => ⟨fun h i hi c hc => ?_, fun h node hn => ?_⟩
  · exact h c.2 ((hmem c.2).mpr ⟨i, hi, c, hc, rfl⟩)
  · obtain ⟨i, hi, c, hc, rfl⟩ := (hmem node).mp hn
    exact h i hi c hc

/-- The assertions of a query hold where its labels do. -/
theorem holds_of_query {l : List (String × Formula)} {I : Interp}
    (h : ∀ f ∈ tracked (pairs l) ++ (label l).map fun a => .const a.label, f.Holds I) :
    ∀ a ∈ l, a.2.Holds I := by
  intro a ha
  obtain ⟨i, hi⟩ := List.getElem?_of_mem ha
  have hpair : (assertionLabel i, a.2) ∈ pairs l := mem_pairs.mpr ⟨i, a.1, hi, rfl⟩
  have hassertion : ⟨a.1, assertionLabel i, a.2⟩ ∈ label l := mem_label.mpr ⟨i, hi, rfl⟩
  have himplies : (Formula.implies (.const (assertionLabel i)) a.2).Holds I :=
    h _ (List.mem_append_left _ (List.mem_map_of_mem hpair))
  exact himplies (h (.const (assertionLabel i)) (List.mem_append_right _ (List.mem_map_of_mem hassertion)))

/-- A model of the query gives a sound result. -/
theorem sound_of_sat {f : Formula} {l : List (String × Formula)} {m : Model}
    (hsolver : r.solver.Correct) (hnodup : ((entries revision.symbols).map Prod.fst).Nodup)
    (htranslate : translateNode (entries revision.symbols) revision.ast "ast" = .ok (.bool f))
    (hholds : ∀ I, f.Holds I ↔ ∀ a ∈ l, a.2.Holds I) (hask : r.ask l = .sat m)
    (hwitness : witness m (entries revision.symbols) = .ok result.witness)
    (hstatus : result.status = .sat) : Sound revision result where
  sat _ := by
    obtain ⟨I, hI, hdescribes⟩ := hsolver.sat hask
    have hformula : f.Holds I := (hholds I).mpr (holds_of_query hI)
    have hsame := witnesses_of_witness hdescribes hnodup hwitness
    refine ⟨I.divZero, ⟨assignment I, hsame⟩, fun σ hσ => ?_⟩
    obtain ⟨p, hp, htrue⟩ := (satisfies_translateNode htranslate).mpr hformula
    exact ⟨p, (meaning_congr (hσ.symbolValue_eq hsame) revision.ast).trans hp, htrue⟩
  unsat hunsat := by
    rw [hstatus] at hunsat
    cases hunsat
  core hunsat := by
    rw [hstatus] at hunsat
    cases hunsat

/-- With harmless labels a core gives a sound result. -/
theorem sound_of_unsat {f : Formula} {l : List (String × Formula)} {core : List Formula}
    (hsolver : r.solver.Correct) (hharmless : LabelsHarmless revision)
    (htranslate : translateNode (entries revision.symbols) revision.ast "ast" = .ok (.bool f))
    (hasserts : List.Forall₂ (Asserts revision.symbols) l (conjuncts revision.ast "ast"))
    (hask : r.ask l = .unsat core) (hmembers : coreMembers core (label l) = .ok result.unsatCore)
    (hstatus : result.status = .unsat) : Sound revision result := by
  obtain ⟨hcore, hunsat⟩ := hsolver.unsat hask
  obtain ⟨chosen, hchosen, rfl⟩ := exists_labelsAt hcore
  have hlength : l.length = (conjuncts revision.ast "ast").length := hasserts.length_eq
  -- Values for the conjuncts of the core would satisfy the query.
  have hnone : ¬ ∃ σ divZero,
      SatisfiesAt revision.symbols (conjuncts revision.ast "ast") chosen σ divZero := by
    intro hsome
    refine hunsat ((sat_query_iff hasserts hchosen).mpr (hharmless chosen (fun i hi => ?_) hsome))
    exact hlength ▸ hchosen i hi
  have hpaths := coreMembers_ok hmembers
  refine ⟨fun hsat => ?_, fun _ σ divZero hsatisfies => ?_, fun _ => ⟨fun member hmember => ?_, ?_⟩⟩
  · rw [hstatus] at hsat
    cases hsat
  · exact hnone ⟨σ, divZero, fun i _ c hc =>
      (satisfies_iff_conjuncts htranslate).mp hsatisfies c (List.mem_of_getElem? hc)⟩
  · have hmem : member.text ∈ corePaths (labelsAt chosen) (label l) :=
      hpaths ▸ List.mem_map_of_mem hmember
    obtain ⟨i, -, g, hget⟩ := mem_corePaths.mp hmem
    obtain ⟨c, hc, hpath, -⟩ := exists_conjunct hasserts hget
    exact List.mem_map.mpr ⟨c, List.mem_of_getElem? hc, hpath.symm⟩
  · rw [satisfiable_reported hasserts hpaths]
    exact hnone

/-- With a correct solver and harmless labels every result is sound. -/
theorem sound_of_labelsHarmless (hsolver : r.solver.Correct) (hharmless : LabelsHarmless revision)
    (h : r.evaluate revision = .ok result) : Sound revision result := by
  obtain ⟨f, l, hnodup, htranslate, hflatten, hanswer⟩ := r.evaluate_ok h
  obtain ⟨l', hl', hasserts, hholds⟩ := flatten_conjuncts htranslate
  cases hflatten.symm.trans hl'
  rcases hanswer with ⟨m, hask, hwitness, hstatus⟩ | ⟨core, hask, hmembers, hstatus⟩ | hstatus
  · exact sound_of_sat hsolver hnodup htranslate hholds hask hwitness hstatus
  · exact sound_of_unsat hsolver hharmless htranslate hasserts hask hmembers hstatus
  · refine ⟨fun h => ?_, fun h => ?_, fun h => ?_⟩
    all_goals rw [hstatus] at h; cases h

/-- A solver that refutes one query with one core and knows nothing else. -/
noncomputable def refuting (assertions assumptions core : List Formula) : Solver where
  check _ asserted assumed :=
    haveI := Classical.propDecidable (asserted = assertions ∧ assumed = assumptions)
    if asserted = assertions ∧ assumed = assumptions then .unsat core else .unknown "incomplete"

theorem refuting_correct {assertions assumptions core : List Formula} (hcore : core ⊆ assumptions)
    (hunsat : ¬ Sat (assertions ++ core)) : (refuting assertions assumptions core).Correct where
  sat := by
    intro _ _ _ _ h
    simp only [refuting] at h
    split at h
    · cases h
    · cases h
  unsat := by
    intro _ _ _ _ h
    simp only [refuting] at h
    split at h
    case isTrue hquery =>
      obtain ⟨rfl, rfl⟩ := hquery
      cases h
      exact ⟨hcore, hunsat⟩
    case isFalse => cases h

/-- A core at some positions of a validated revision is reported. -/
theorem exists_unsat {core : List Formula} {f : Formula} {l : List (String × Formula)}
    {chosen : List ℕ} (h : (validateRevision revision).success = true)
    (htranslate : translateNode (entries revision.symbols) revision.ast "ast" = .ok (.bool f))
    (hflatten : flatten revision.ast f "ast" = some l)
    (hasserts : List.Forall₂ (Asserts revision.symbols) l (conjuncts revision.ast "ast"))
    (hne : chosen ≠ []) (hchosen : ∀ i ∈ chosen, i < l.length) (hcore : core = labelsAt chosen)
    (hask : r.ask l = .unsat core) :
    ∃ result, r.evaluate revision = .ok result ∧ result.status = .unsat
      ∧ result.unsatCore.map Text.text = corePaths (labelsAt chosen) (label l) := by
  subst hcore
  have hsome : corePaths (labelsAt chosen) (label l) ≠ [] := by
    obtain ⟨i, hi⟩ := List.exists_mem_of_ne_nil chosen hne
    have hlt := hchosen i hi
    exact List.ne_nil_of_mem (mem_corePaths.mpr ⟨i, hi, l[i].2, List.getElem?_eq_getElem hlt⟩)
  have hvalid : ∀ path ∈ corePaths (labelsAt chosen) (label l), isAstPath path = true := by
    intro path hpath
    obtain ⟨i, -, g, hget⟩ := mem_corePaths.mp hpath
    obtain ⟨c, hc, hsame, -⟩ := exists_conjunct hasserts hget
    have hconjunct := isAstPath_conjuncts rfl htranslate c (List.mem_of_getElem? hc)
    rwa [← hsame] at hconjunct
  obtain ⟨members, hmembers⟩ := exists_coreMembers hsome hvalid
  have hpaths := coreMembers_ok hmembers
  have hdistinct : ((label l).map (·.path)).Nodup := by
    rw [map_path_label]
    rw [map_path_asserts hasserts]
    exact nodup_paths _ _
  obtain ⟨f', hboundary, hdeclarations, htranslate'⟩ := exists_translation h
  cases htranslate.symm.trans htranslate'
  let answer : Answer := { status := .unsat, core := members }
  have hsolve : r.solve f (entries revision.symbols) revision.ast = .ok answer := by
    simp only [Z3SymbolicReasoner.solve, hflatten, hask, hmembers, Except.ok_bind]
    rfl
  have hcoherent : (r.result revision answer).Coherent :=
    { timeout := r.valid.1
      reason := rfl
      witness := fun _ => rfl
      core := by
        refine ⟨fun _ hnil => hsome ?_, fun _ => rfl⟩
        rw [← hpaths, show members = [] from hnil, List.map_nil]
      witnessSorted := List.Pairwise.nil
      coreSorted := by
        show (members.map Text.text).Pairwise (· < ·)
        rw [hpaths]
        exact pairwise_corePaths hdistinct }
  refine ⟨r.result revision answer, ?_, rfl, hpaths⟩
  rw [Z3SymbolicReasoner.evaluate, hboundary, Except.ok_bind, hdeclarations, Except.ok_bind,
    htranslate, Except.ok_bind]
  show (r.solve f _ _ >>= _) = _
  rw [hsolve, Except.ok_bind, if_pos hcoherent]

/-- Where labels are harmful some correct solver makes a result unsound. -/
theorem exists_unsound (h : (validateRevision revision).success = true) {chosen : List ℕ}
    (hchosen : ∀ i ∈ chosen, i < (conjuncts revision.ast "ast").length)
    (hsome : ∃ σ divZero,
      SatisfiesAt revision.symbols (conjuncts revision.ast "ast") chosen σ divZero)
    (hnone : ¬ ∃ σ divZero,
      Fits revision.symbols (conjuncts revision.ast "ast") chosen σ divZero) :
    ∃ r : Z3SymbolicReasoner, r.solver.Correct ∧ ∃ result, r.evaluate revision = .ok result
      ∧ result.status = .unsat ∧ Satisfiable revision.symbols (reported revision result) := by
  obtain ⟨f, -, -, htranslate⟩ := exists_translation h
  obtain ⟨l, hflatten, hasserts, -⟩ := flatten_conjuncts htranslate
  have hchosen' : ∀ i ∈ chosen, i < l.length := by
    rw [hasserts.length_eq]
    exact hchosen
  have hne : chosen ≠ [] := by
    rintro rfl
    exact hnone (fits_nil _ _)
  have hcore : labelsAt chosen ⊆ (label l).map fun a => .const a.label := by
    intro g hg
    rw [labelsAt, List.map_map] at hg
    obtain ⟨i, hi, rfl⟩ := List.mem_map.mp hg
    have hlt := hchosen' i hi
    exact List.mem_map.mpr ⟨⟨l[i].1, assertionLabel i, l[i].2⟩,
      mem_label.mpr ⟨i, List.getElem?_eq_getElem hlt, rfl⟩, rfl⟩
  have hunsat : ¬ Sat (tracked (pairs l) ++ labelsAt chosen) := fun hsat =>
    hnone ((sat_query_iff hasserts hchosen').mp hsat)
  let r : Z3SymbolicReasoner :=
    { timeoutMs := 1
      solver := refuting (tracked (pairs l)) ((label l).map fun a => .const a.label) (labelsAt chosen)
      version := "4"
      valid := by decide }
  have hask : r.ask l = .unsat (labelsAt chosen) := if_pos ⟨rfl, rfl⟩
  obtain ⟨result, hresult, hstatus, hpaths⟩ :=
    exists_unsat h htranslate hflatten hasserts hne hchosen' rfl hask
  exact ⟨r, refuting_correct hcore hunsat, result, hresult, hstatus,
    (satisfiable_reported hasserts hpaths).mpr hsome⟩

/-- **Soundness.**  With every correct solver the results for a validated revision are sound,
    exactly when the labels are harmless. -/
theorem sound_iff_labelsHarmless (h : (validateRevision revision).success = true) :
    (∀ r : Z3SymbolicReasoner, r.solver.Correct → ∀ result, r.evaluate revision = .ok result →
        Sound revision result)
      ↔ LabelsHarmless revision := by
  constructor
  · intro hsound chosen hchosen hsome
    by_contra hnone
    obtain ⟨r, hsolver, result, hresult, hstatus, hsatisfiable⟩ :=
      exists_unsound h hchosen hsome hnone
    exact ((hsound r hsolver result hresult).core hstatus).2 hsatisfiable
  · exact fun hharmless r hsolver result hresult =>
      sound_of_labelsHarmless hsolver hharmless hresult

end Revisions

/-! ### A symbol and its negation -/

/-- `NOT name` of one boolean symbol. -/
def negation (name : SymbolName) : FormalizationRevision :=
  .ofAst ⟨"00000000-0000-4000-8000-000000000001", .refl true⟩ (.operation .not [.symbol name])
    [⟨name, .boolean, none, rfl⟩]

theorem validate_negation (name : SymbolName) :
    (validateRevision (negation name)).success = true := by
  simp [negation, FormalizationRevision.ofAst, validateRevision, walk, walkItems, declaration?,
    duplicateIssues, issueIf, inferOperation, Operator.arity]

theorem conjuncts_negation (name : SymbolName) :
    conjuncts (negation name).ast "ast" = [("ast", .operation .not [.symbol name])] := rfl

theorem satisfies_negation {name : SymbolName} {σ : Assignment} {divZero : ℝ → ℝ} :
    Satisfies (negation name).symbols σ divZero (.operation .not [.symbol name])
      ↔ ¬ σ.bool name := by
  have hmeaning : meaning (negation name).symbols σ divZero (.operation .not [.symbol name])
      = some (.bool ¬ σ.bool name) := by
    simp [meaning, meaningItems, symbolValue, declaration?, negation,
      FormalizationRevision.ofAst, combine]
  rw [Satisfies, hmeaning]
  simp only [Option.some.injEq, Value.bool.injEq, exists_eq_left']

/-- A symbol with an ordinary name. -/
theorem sound_negation_p :
    (validateRevision (negation ⟨"p", by decide⟩)).success = true
      ∧ ∀ r : Z3SymbolicReasoner, r.solver.Correct → ∀ result,
          r.evaluate (negation ⟨"p", by decide⟩) = .ok result →
            Sound (negation ⟨"p", by decide⟩) result := by
  refine ⟨validate_negation _, (sound_iff_labelsHarmless (validate_negation _)).mpr ?_⟩
  refine labelsHarmless_of_names fun i hi declaration hd _ => ?_
  rw [conjuncts_negation, List.length_singleton, Nat.lt_one_iff] at hi
  rw [List.mem_singleton.mp hd, hi]
  decide

/-- The only satisfying value of the symbol `agora_assertion_0` contradicts the label. -/
theorem unsound_negation_label :
    ¬ ∀ revision : FormalizationRevision, (validateRevision revision).success = true →
      ∀ r : Z3SymbolicReasoner, r.solver.Correct → ∀ result, r.evaluate revision = .ok result →
        Sound revision result := by
  intro hsound
  let name : SymbolName := ⟨"agora_assertion_0", by decide⟩
  have hsome : ∃ σ divZero, SatisfiesAt (negation name).symbols
      (conjuncts (negation name).ast "ast") [0] σ divZero := by
    refine ⟨⟨fun _ => False, fun _ => 0, fun _ => 0⟩, fun _ => 0, fun i hi c hc => ?_⟩
    rw [List.mem_singleton.mp hi, conjuncts_negation] at hc
    cases hc
    exact satisfies_negation.mpr not_false
  have hnone : ¬ ∃ σ divZero, Fits (negation name).symbols
      (conjuncts (negation name).ast "ast") [0] σ divZero := by
    rintro ⟨σ, divZero, hsatisfies, hlabels⟩
    have hget : (conjuncts (negation name).ast "ast")[0]?
        = some ("ast", .operation .not [.symbol name]) := by
      rw [conjuncts_negation]
      rfl
    have htrue := (hlabels 0 _ hget ⟨name, .boolean, none, rfl⟩ (List.mem_singleton_self _) rfl
      rfl).1 (List.mem_singleton_self _)
    exact satisfies_negation.mp (hsatisfies 0 (List.mem_singleton_self _) _ hget) htrue
  obtain ⟨r, hsolver, result, hresult, hstatus, hsatisfiable⟩ :=
    exists_unsound (validate_negation name) (by decide) hsome hnone
  exact ((hsound _ (validate_negation name) r hsolver result hresult).core hstatus).2 hsatisfiable

/-! ### The validator and the translator agree

`translate` is the part of an evaluation that can reject a formula: the declarations, the formula
and its root.  The validator infers sorts in its own way (a product is REAL for it, whatever the
factors are), stops above a node without a sort and goes on above a mismatch; the translator stops
at the first error.  Nevertheless a formula that the validator accepts is translated, so that an
error of the translator comes with an issue of the validator (`translate_agrees`). -/

/-- The declarations, the formula and its root. -/
def translate (model : FormalizationRevision) : Outcome Formula := do
  let symbols ← translateDeclarations model.symbols []
  let translated ← translateNode symbols model.ast "ast"
  requireBooleanRoot translated

section Agreement

variable {revision : FormalizationRevision}

/-- An evaluation checks the boundary, translates and solves. -/
theorem evaluate_eq_translate (r : Z3SymbolicReasoner) (model : FormalizationRevision) :
    r.evaluate model = (do
      validateBoundary model
      let symbols ← translateDeclarations model.symbols []
      let formula ← translate model
      let answer ← r.solve formula symbols model.ast
      if (r.result model answer).Coherent then .ok (r.result model answer)
      else inputError "invalid symbolic input") := by
  rw [Z3SymbolicReasoner.evaluate, translate]
  cases translateDeclarations model.symbols [] with
  | error e => rfl
  | ok symbols => simp only [Except.ok_bind, bind_assoc]

/-- **Agreement.**  A formula that passes validation is translated to a boolean root, and when the
    translation raises, validation has an issue. -/
theorem translate_agrees (revision : FormalizationRevision) :
    ((validateRevision revision).success = true →
        ∃ symbols translated f, translateDeclarations revision.symbols [] = .ok symbols
          ∧ translateNode symbols revision.ast "ast" = .ok translated
          ∧ translated.sort = .boolean ∧ requireBooleanRoot translated = .ok f
          ∧ translate revision = .ok f)
      ∧ ∀ e, translate revision = .error e → (validateRevision revision).issues ≠ [] := by
  have htranslated (h : (validateRevision revision).success = true) :
      ∃ symbols translated f, translateDeclarations revision.symbols [] = .ok symbols
        ∧ translateNode symbols revision.ast "ast" = .ok translated
        ∧ translated.sort = .boolean ∧ requireBooleanRoot translated = .ok f
        ∧ translate revision = .ok f := by
    obtain ⟨f, -, hdeclarations, hnode⟩ := exists_translation h
    refine ⟨entries revision.symbols, .bool f, f, hdeclarations, hnode, rfl, rfl, ?_⟩
    rw [translate, hdeclarations, Except.ok_bind, hnode, Except.ok_bind]
    rfl
  refine ⟨htranslated, fun e he hnil => ?_⟩
  -- Without an issue the validation succeeds, and the translation would not raise.
  obtain ⟨_, _, f, _, _, _, _, hf⟩ := htranslated (success_iff_issues.mpr hnil)
  rw [hf] at he
  cases he

/-- A formula that the validator accepts, and one that the translator rejects. -/
theorem translate_agrees_negation :
    (∃ f, translate (negation ⟨"p", by decide⟩) = .ok f) ∧
      (validateRevision (.ofAst ⟨"00000000-0000-4000-8000-000000000001", by decide⟩
        (.operation .not [.integer ⟨"1", by decide⟩]) [])).issues ≠ [] := by
  constructor
  · obtain ⟨_, _, f, _, _, _, _, hf⟩ := (translate_agrees (negation ⟨"p", by decide⟩)).1
      (validate_negation _)
    exact ⟨f, hf⟩
  · exact (translate_agrees _).2 _ rfl

end Agreement

end Agora.Symbolic
