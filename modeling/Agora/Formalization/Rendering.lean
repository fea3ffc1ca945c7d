import Agora.Formalization.Walk
import Mathlib.Data.List.TakeWhile

namespace Agora.Formalization

open Marl (Text isLower isUpper)

/-!
# The canonical rendering

An operation is rendered between parentheses, its words apart; a leaf is one word.  A rendering
that is followed by the end of a word therefore determines the formula and what follows, up to the
kind of the numeric literals (`eq_of_append`), as long as no symbol is called like a boolean
literal.  Names may be `true` or `false`, and then two formulas share one rendering.
-/

/-! ### Words -/

/-- A character of a number. -/
def isNumberChar (c : Char) : Bool := c.isDigit || c = '-' || c = '.'

/-- A character that does not end a word. -/
def isWordChar (c : Char) : Bool := c ≠ ' ' && c ≠ '(' && c ≠ ')'

theorem isWordChar_of_number {c : Char} (h : isNumberChar c = true) : isWordChar c = true := by
  rw [isWordChar]
  simp only [ne_eq, decide_not, Bool.and_eq_true, Bool.not_eq_true', decide_eq_false_iff_not]
  refine ⟨⟨?_, ?_⟩, ?_⟩
  all_goals
    rintro rfl
    revert h
    decide

theorem mem_of_isPositive {cs : List Char} (h : isPositive cs = true) :
    cs ≠ [] ∧ ∀ c ∈ cs, c.isDigit = true := by
  cases cs with
  | nil => cases h
  | cons c cs =>
    rw [isPositive, Bool.and_eq_true, Bool.and_eq_true, List.all_eq_true] at h
    exact ⟨List.cons_ne_nil _ _, List.forall_mem_cons.mpr ⟨h.1.1, h.2⟩⟩

/-- A whole number consists of digits and signs. -/
theorem mem_of_isWhole {cs : List Char} (h : isWhole cs = true) :
    cs ≠ [] ∧ ∀ c ∈ cs, c.isDigit = true ∨ c = '-' := by
  rw [isWhole, Bool.or_eq_true, decide_eq_true_eq] at h
  rcases h with rfl | h
  · exact ⟨by decide, List.forall_mem_singleton.mpr (.inl (by decide))⟩
  · unfold isNonzero at h
    split at h
    case h_1 cs =>
      refine ⟨List.cons_ne_nil _ _, List.forall_mem_cons.mpr ⟨.inr rfl, ?_⟩⟩
      exact fun c hc => .inl ((mem_of_isPositive h).2 c hc)
    case h_2 => exact ⟨(mem_of_isPositive h).1, fun c hc => .inl ((mem_of_isPositive h).2 c hc)⟩

/-- A real text consists of digits, signs and points. -/
theorem mem_of_isRealText {s : String} (h : isRealText s = true) :
    s.toList ≠ [] ∧ ∀ c ∈ s.toList, isNumberChar c = true := by
  have hnumber {c : Char} (hc : c.isDigit = true ∨ c = '-') : isNumberChar c = true := by
    rcases hc with hc | rfl
    · rw [isNumberChar, hc]
      rfl
    · rfl
  have hspan := List.takeWhile_append_dropWhile (p := (· ≠ '.')) (l := s.toList)
  rw [isRealText, List.span_eq_takeWhile_dropWhile] at h
  split at h
  case h_1 whole heq =>
    rw [Prod.mk.injEq] at heq
    rw [heq.1, heq.2, List.append_nil] at hspan
    rw [← hspan]
    exact ⟨(mem_of_isWhole h).1, fun c hc => hnumber ((mem_of_isWhole h).2 c hc)⟩
  case h_2 whole point fraction heq =>
    rw [Prod.mk.injEq] at heq
    rw [Bool.and_eq_true, isFraction, Bool.and_eq_true, List.all_eq_true] at h
    obtain ⟨hwhole, hfraction, -⟩ := h
    have hpoint : point = '.' := by
      have := List.head?_dropWhile_not (p := (· ≠ '.')) s.toList
      rw [heq.2] at this
      simpa using this
    rw [heq.1, heq.2] at hspan
    rw [← hspan]
    obtain ⟨hne, hchars⟩ := mem_of_isWhole hwhole
    refine ⟨fun hnil => hne (List.append_eq_nil_iff.mp hnil).1, ?_⟩
    intro c hc
    rcases List.mem_append.mp hc with hc | hc
    · exact hnumber (hchars c hc)
    · rcases List.mem_cons.mp hc with rfl | hc
      · rw [hpoint]
        rfl
      · exact hnumber (.inl (hfraction c hc))

/-- An integer text is a real text. -/
theorem isRealText_of_isIntegerText {s : String} (h : isIntegerText s = true) :
    isRealText s = true := by
  have hpoint : ∀ c ∈ s.toList, decide (c ≠ '.') = true := by
    intro c hc
    apply decide_eq_true
    rintro rfl
    have := (mem_of_isWhole h).2 _ hc
    revert this
    decide
  rw [isRealText, List.span_eq_takeWhile_dropWhile, List.takeWhile_eq_self_iff.mpr hpoint,
    List.dropWhile_eq_nil_iff.mpr hpoint]
  exact h

/-! ### Formulas up to the kind of their literals -/

mutual
/-- The formula with real literals in the place of integer literals. -/
def ASTNode.withoutKinds : ASTNode → ASTNode
  | .boolean value => .boolean value
  | .integer value => .real ⟨value.text, isRealText_of_isIntegerText value.isValid⟩
  | .real value => .real value
  | .symbol name => .symbol name
  | .operation operator arguments => .operation operator (ASTNode.withoutKindsItems arguments)
def ASTNode.withoutKindsItems : List ASTNode → List ASTNode
  | [] => []
  | node :: nodes => node.withoutKinds :: ASTNode.withoutKindsItems nodes
end

/-- A name that renders like a boolean literal. -/
def isBooleanWord (name : SymbolName) : Bool := name.text = "true" || name.text = "false"

/-! ### Renderings -/

theorem mem_of_isSymbolName {s : String} (h : isSymbolName s = true) :
    ∃ c cs, s.toList = c :: cs ∧ (isLower c || isUpper c) = true
      ∧ ∀ d ∈ s.toList, isWordChar d = true := by
  rw [isSymbolName, Marl.matchesShape] at h
  split at h
  case h_1 => cases h
  case h_2 c cs heq =>
    simp only [Bool.and_eq_true, List.all_eq_true] at h
    refine ⟨c, cs, heq, h.1.1, ?_⟩
    have hword {d : Char} (hd : (isLower d || isUpper d || d.isDigit || decide (d = '_')) = true) :
        isWordChar d = true := by
      simp only [isWordChar, ne_eq, decide_not, Bool.and_eq_true, Bool.not_eq_true',
        decide_eq_false_iff_not]
      refine ⟨⟨?_, ?_⟩, ?_⟩
      all_goals
        rintro rfl
        revert hd
        decide
    rw [heq]
    refine List.forall_mem_cons.mpr ⟨hword ?_, fun d hd => hword (h.1.2 d hd)⟩
    rw [h.1.1]
    rfl

/-- A literal or a symbol. -/
def ASTNode.isLeaf : ASTNode → Bool
  | .operation _ _ => false
  | _ => true

/-- A leaf is one word. -/
theorem isWordChar_of_isLeaf {node : ASTNode} (h : node.isLeaf = true) :
    (renderAst node).toList ≠ [] ∧ ∀ c ∈ (renderAst node).toList, isWordChar c = true := by
  cases node with
  | boolean value => cases value <;> exact ⟨by decide, List.all_eq_true.mp (by decide)⟩
  | integer value =>
    obtain ⟨hne, hchars⟩ := mem_of_isRealText (isRealText_of_isIntegerText value.isValid)
    exact ⟨hne, fun c hc => isWordChar_of_number (hchars c hc)⟩
  | real value =>
    obtain ⟨hne, hchars⟩ := mem_of_isRealText value.isValid
    exact ⟨hne, fun c hc => isWordChar_of_number (hchars c hc)⟩
  | symbol name =>
    obtain ⟨c, cs, heq, -, hchars⟩ := mem_of_isSymbolName name.isValid
    refine ⟨?_, hchars⟩
    show name.text.toList ≠ []
    rw [heq]
    exact List.cons_ne_nil _ _
  | operation operator arguments => cases h

theorem isLetter_of_number {c : Char} (h : isNumberChar c = true) :
    (isLower c || isUpper c) = false := by
  rw [isNumberChar, Bool.or_eq_true, Bool.or_eq_true, decide_eq_true_eq, decide_eq_true_eq] at h
  rcases h with (h | rfl) | rfl
  · simp only [Char.isDigit, isLower, isUpper, Bool.and_eq_true, decide_eq_true_eq, Char.le_def,
      UInt32.le_iff_toNat_le, Bool.or_eq_false_iff, Bool.and_eq_false_iff,
      decide_eq_false_iff_not] at h ⊢
    have ha : 'a'.val.toNat = 97 := rfl
    have hA : 'A'.val.toNat = 65 := rfl
    have h9 : '9'.val.toNat = 57 := rfl
    omega
  · rfl
  · rfl

/-- A number is no name. -/
theorem number_ne_name {s t : String} (hs : isRealText s = true) (ht : isSymbolName t = true) :
    s ≠ t := by
  rintro rfl
  obtain ⟨c, cs, heq, hletter, -⟩ := mem_of_isSymbolName ht
  have hnumber := (mem_of_isRealText hs).2 c (by rw [heq]; exact List.mem_cons_self)
  rw [isLetter_of_number hnumber] at hletter
  cases hletter

/-- A boolean literal renders like a name. -/
theorem boolean_isSymbolName (value : Bool) :
    isSymbolName (renderAst (.boolean value)) = true := by
  cases value <;> decide

/-- A name that renders like a boolean literal is such a word. -/
theorem isBooleanWord_of_eq {value : Bool} {name : SymbolName}
    (h : renderAst (.boolean value) = name.text) : isBooleanWord name = true := by
  rw [isBooleanWord, ← h]
  cases value <;> decide

/-- Leaves with the same word are the same, up to the kind of a number. -/
theorem withoutKinds_eq_of_word {a b : ASTNode} (ha : a.isLeaf = true) (hb : b.isLeaf = true)
    (hnames : ∀ name, a = .symbol name ∨ b = .symbol name → isBooleanWord name = false)
    (h : renderAst a = renderAst b) : a.withoutKinds = b.withoutKinds := by
  have hinteger (v : IntegerText) := isRealText_of_isIntegerText v.isValid
  match a, b with
  | .boolean v, .boolean w => cases v <;> cases w <;> first | rfl | exact absurd h (by decide)
  | .integer v, .integer w | .integer v, .real w | .real v, .integer w | .real v, .real w =>
    exact congrArg ASTNode.real (Text.eq_of_text_eq h)
  | .symbol n, .symbol m => exact congrArg ASTNode.symbol (Text.eq_of_text_eq h)
  -- A number is neither a boolean literal nor a name.
  | .integer v, .boolean w => exact absurd h (number_ne_name (hinteger v) (boolean_isSymbolName w))
  | .real v, .boolean w => exact absurd h (number_ne_name v.isValid (boolean_isSymbolName w))
  | .boolean v, .integer w =>
    exact absurd h.symm (number_ne_name (hinteger w) (boolean_isSymbolName v))
  | .boolean v, .real w => exact absurd h.symm (number_ne_name w.isValid (boolean_isSymbolName v))
  | .integer v, .symbol m => exact absurd h (number_ne_name (hinteger v) m.isValid)
  | .real v, .symbol m => exact absurd h (number_ne_name v.isValid m.isValid)
  | .symbol n, .integer w => exact absurd h.symm (number_ne_name (hinteger w) n.isValid)
  | .symbol n, .real w => exact absurd h.symm (number_ne_name w.isValid n.isValid)
  -- A name is no boolean literal by assumption.
  | .boolean v, .symbol m =>
    have := isBooleanWord_of_eq h
    rw [hnames m (.inr rfl)] at this
    cases this
  | .symbol n, .boolean w =>
    have := isBooleanWord_of_eq h.symm
    rw [hnames n (.inl rfl)] at this
    cases this
  | .operation _ _, _ => cases ha
  | _, .operation _ _ => cases hb

/-! ### One word after the other -/

/-- What follows a word: nothing, or a character that is not of a word. -/
def EndsWord (rest : List Char) : Prop := ∀ c ∈ rest.head?, isWordChar c = false

theorem endsWord_space (rest : List Char) : EndsWord (' ' :: rest) := by
  rintro c ⟨⟩
  rfl

theorem endsWord_paren (rest : List Char) : EndsWord (')' :: rest) := by
  rintro c ⟨⟩
  rfl

theorem takeWhile_word {w rest : List Char} (hw : ∀ c ∈ w, isWordChar c = true)
    (hrest : EndsWord rest) : (w ++ rest).takeWhile isWordChar = w := by
  rw [List.takeWhile_append_of_pos hw]
  cases rest with
  | nil => rw [List.takeWhile_nil, List.append_nil]
  | cons c rest =>
    have hc := hrest c rfl
    rw [List.takeWhile_cons_of_neg (by rw [hc]; exact Bool.false_ne_true), List.append_nil]

/-- A text starts with at most one word. -/
theorem eq_of_word_append {w v rest rest' : List Char} (hw : ∀ c ∈ w, isWordChar c = true)
    (hv : ∀ c ∈ v, isWordChar c = true) (hrest : EndsWord rest) (hrest' : EndsWord rest')
    (h : w ++ rest = v ++ rest') : w = v ∧ rest = rest' := by
  have hword := congrArg (List.takeWhile isWordChar) h
  rw [takeWhile_word hw hrest, takeWhile_word hv hrest'] at hword
  rw [hword] at h
  exact ⟨hword, List.append_cancel_left h⟩

section Operations

variable {operator : Operator} {x y : ASTNode}

theorem toList_render_not (x : ASTNode) : (renderAst (.operation .not [x])).toList
    = '(' :: (['n', 'o', 't'] ++ ' ' :: ((renderAst x).toList ++ [')'])) := by
  show ("(not " ++ renderAst x ++ ")").toList = _
  rw [String.toList_append, String.toList_append]
  rfl

theorem toList_render_neg (x : ASTNode) : (renderAst (.operation .neg [x])).toList
    = '(' :: '-' :: ((renderAst x).toList ++ [')']) := by
  show ("(-" ++ renderAst x ++ ")").toList = _
  rw [String.toList_append, String.toList_append]
  rfl

theorem toList_render_binary (harity : operator.arity = 2) (x y : ASTNode) :
    (renderAst (.operation operator [x, y])).toList
      = '(' :: ((renderAst x).toList
        ++ ' ' :: (operator.token.toList ++ ' ' :: ((renderAst y).toList ++ [')']))) := by
  have hrender : renderAst (.operation operator [x, y])
      = "(" ++ (renderAst x ++ (" " ++ operator.token ++ " ") ++ renderAst y) ++ ")" := by
    cases operator <;> first | rfl | cases harity
  have hparen : "(".toList = ['('] := rfl
  have hclose : ")".toList = [')'] := rfl
  have hspace : " ".toList = [' '] := rfl
  rw [hrender]
  simp only [String.toList_append, hparen, hclose, hspace, List.append_assoc, List.cons_append,
    List.nil_append]

theorem isWordChar_token (operator : Operator) :
    ∀ c ∈ operator.token.toList, isWordChar c = true := by
  cases operator <;> exact List.all_eq_true.mp (by decide)

/-- A binary operation is known by its token. -/
theorem eq_of_token {operator' : Operator} (harity : operator.arity = 2)
    (harity' : operator'.arity = 2) (h : operator.token = operator'.token) :
    operator = operator' := by
  revert h
  cases operator <;> cases harity <;> cases operator' <;> cases harity' <;> decide

end Operations

/-! ### Unique readability -/

section Readability

variable {declarations : List SymbolDeclaration}

/-- Induction by the form of the rendering. -/
theorem rendering_induction {motive : ASTNode → Prop}
    (leaf : ∀ node, node.isLeaf = true → node.wellFormed declarations = true → motive node)
    (not : ∀ x, x.wellFormed declarations = true → motive x → motive (.operation .not [x]))
    (neg : ∀ x, x.wellFormed declarations = true → motive x → motive (.operation .neg [x]))
    (binary : ∀ operator x y, operator.arity = 2 → x.wellFormed declarations = true →
      y.wellFormed declarations = true → motive x → motive y →
      motive (.operation operator [x, y])) :
    ∀ node : ASTNode, node.wellFormed declarations = true → motive node := by
  apply wellFormed_induction
  · exact fun v => leaf _ rfl rfl
  · exact fun v => leaf _ rfl rfl
  · exact fun v => leaf _ rfl rfl
  · intro name d hd
    apply leaf _ rfl
    rw [ASTNode.wellFormed, hd]
    rfl
  · intro operator x harity hx ih
    cases operator <;> cases harity
    · exact not x hx ih
    · exact neg x hx ih
  · exact binary

/-- An operation starts with a parenthesis. -/
theorem isLeaf_or_paren {node : ASTNode} (h : node.wellFormed declarations = true) :
    node.isLeaf = true ∨ ∃ rest, (renderAst node).toList = '(' :: rest := by
  revert node
  apply rendering_induction
  · exact fun node hleaf _ => .inl hleaf
  · exact fun x _ _ => .inr ⟨_, toList_render_not x⟩
  · exact fun x _ _ => .inr ⟨_, toList_render_neg x⟩
  · exact fun operator x y harity _ _ _ _ => .inr ⟨_, toList_render_binary harity x y⟩

/-- A formula whose rendering starts with a character of a word is a leaf. -/
theorem isLeaf_of_head {node : ASTNode} (h : node.wellFormed declarations = true) {c : Char}
    {rest rest' : List Char} (hc : isWordChar c = true)
    (heq : (renderAst node).toList ++ rest = c :: rest') : node.isLeaf = true := by
  rcases isLeaf_or_paren h with hleaf | ⟨t, ht⟩
  · exact hleaf
  · rw [ht, List.cons_append] at heq
    rw [← (List.cons.inj heq).1] at hc
    cases hc

/-- A rendering before a closing parenthesis is no word before a space. -/
theorem paren_ne_space {node : ASTNode} (h : node.wellFormed declarations = true) {w : List Char}
    (hw : ∀ c ∈ w, isWordChar c = true) (rest rest' : List Char) :
    (renderAst node).toList ++ ')' :: rest ≠ w ++ ' ' :: rest' := by
  intro heq
  rcases isLeaf_or_paren h with hleaf | ⟨t, ht⟩
  · have hend := eq_of_word_append (isWordChar_of_isLeaf hleaf).2 hw (endsWord_paren rest)
      (endsWord_space rest') heq
    cases (List.cons.inj hend.2).1
  · rw [ht] at heq
    cases w with
    | nil => cases (List.cons.inj heq).1
    | cons c w =>
      have hc := hw c List.mem_cons_self
      rw [← (List.cons.inj heq).1] at hc
      cases hc

/-- A negation is no binary operation: its first word would be `not` and its second the token. -/
theorem not_ne_binary {operator : Operator} {x y z : ASTNode} (harity : operator.arity = 2)
    (hx : x.wellFormed declarations = true) (hy : y.wellFormed declarations = true)
    (rest rest' : List Char) : (renderAst (.operation .not [x])).toList ++ rest
      ≠ (renderAst (.operation operator [y, z])).toList ++ rest' := by
  intro heq
  rw [toList_render_not, toList_render_binary harity, List.cons_append, List.cons_append] at heq
  simp only [List.append_assoc, List.cons_append] at heq
  replace heq := (List.cons.inj heq).2
  have hleaf := isLeaf_of_head hy (by decide) heq.symm
  have hword : ∀ c ∈ ['n', 'o', 't'], isWordChar c = true := List.all_eq_true.mp (by decide)
  obtain ⟨-, hrest⟩ := eq_of_word_append hword (isWordChar_of_isLeaf hleaf).2
    (endsWord_space _) (endsWord_space _) heq
  exact paren_ne_space hx (isWordChar_token operator) _ _ (List.cons.inj hrest).2

/-- A minus is no binary operation: its first word would end before a space. -/
theorem neg_ne_binary {operator : Operator} {x y z : ASTNode} (harity : operator.arity = 2)
    (hx : x.wellFormed declarations = true) (hy : y.wellFormed declarations = true)
    (rest rest' : List Char) : (renderAst (.operation .neg [x])).toList ++ rest
      ≠ (renderAst (.operation operator [y, z])).toList ++ rest' := by
  intro heq
  rw [toList_render_neg, toList_render_binary harity, List.cons_append, List.cons_append] at heq
  simp only [List.append_assoc, List.cons_append] at heq
  replace heq := (List.cons.inj heq).2
  have hleaf := isLeaf_of_head hy (by decide) heq.symm
  obtain ⟨hne, hword⟩ := isWordChar_of_isLeaf hleaf
  cases hy' : (renderAst y).toList with
  | nil => exact hne hy'
  | cons c w =>
    rw [hy', List.cons_append] at heq
    apply paren_ne_space hx _ _ _ (List.cons.inj heq).2
    intro d hd
    exact hword d (by rw [hy']; exact List.mem_cons_of_mem _ hd)

theorem not_ne_neg {x y : ASTNode} (rest rest' : List Char) :
    (renderAst (.operation .not [x])).toList ++ rest
      ≠ (renderAst (.operation .neg [y])).toList ++ rest' := by
  intro heq
  rw [toList_render_not, toList_render_neg] at heq
  cases (List.cons.inj (List.cons.inj heq).2).1

theorem isBooleanWord_symbol (hnames : ∀ d ∈ declarations, isBooleanWord d.name = false)
    {name : SymbolName} (h : (ASTNode.symbol name).wellFormed declarations = true) :
    isBooleanWord name = false := by
  rw [ASTNode.wellFormed] at h
  obtain ⟨d, hd⟩ := Option.isSome_iff_exists.mp h
  have hname := List.find?_some hd
  rw [decide_eq_true_eq] at hname
  rw [← hname]
  exact hnames d (List.mem_of_find?_eq_some hd)

/-- A leaf is no operation: its first character is of a word. -/
theorem leaf_ne_operation {operator : Operator} {arguments : List ASTNode} {node : ASTNode}
    (hleaf : node.isLeaf = true)
    (h : (ASTNode.operation operator arguments).wellFormed declarations = true)
    (rest rest' : List Char) : (renderAst node).toList ++ rest
      ≠ (renderAst (.operation operator arguments)).toList ++ rest' := by
  intro heq
  obtain ⟨hne, hword⟩ := isWordChar_of_isLeaf hleaf
  cases hnode : (renderAst node).toList with
  | nil => exact hne hnode
  | cons c w =>
    have hc := hword c (by rw [hnode]; exact List.mem_cons_self)
    rw [hnode, List.cons_append] at heq
    cases isLeaf_of_head h hc heq.symm

/-- **Unique readability.**  A rendering that ends with a word determines its formula and what
    follows. -/
theorem eq_of_append (hnames : ∀ d ∈ declarations, isBooleanWord d.name = false) :
    ∀ a : ASTNode, a.wellFormed declarations = true → ∀ b : ASTNode,
      b.wellFormed declarations = true → ∀ rest rest', EndsWord rest → EndsWord rest' →
      (renderAst a).toList ++ rest = (renderAst b).toList ++ rest' →
      a.withoutKinds = b.withoutKinds ∧ rest = rest' := by
  apply rendering_induction
  · intro a ha hwa b hwb rest rest' hrest hrest' heq
    cases hb : b.isLeaf with
    | true =>
      obtain ⟨hword, hsame⟩ := eq_of_word_append (isWordChar_of_isLeaf ha).2
        (isWordChar_of_isLeaf hb).2 hrest hrest' heq
      refine ⟨withoutKinds_eq_of_word ha hb ?_ (String.toList_inj.mp hword), hsame⟩
      rintro name (rfl | rfl)
      · exact isBooleanWord_symbol hnames hwa
      · exact isBooleanWord_symbol hnames hwb
    | false =>
      cases b with
      | operation operator arguments => exact absurd heq (leaf_ne_operation ha hwb _ _)
      | _ => cases hb
  · intro x hx ih
    apply rendering_induction
    · intro b hb _ rest rest' _ _ heq
      exact absurd heq.symm (leaf_ne_operation hb (wellFormed_unary.mpr ⟨rfl, hx⟩) _ _)
    · intro y hy _ rest rest' _ _ heq
      rw [toList_render_not, toList_render_not] at heq
      simp only [List.cons_append, List.append_assoc, List.cons.injEq, true_and,
        List.nil_append] at heq
      obtain ⟨hxy, hsame⟩ := ih y hy _ _ (endsWord_paren _) (endsWord_paren _) heq
      refine ⟨?_, (List.cons.inj hsame).2⟩
      show ASTNode.operation .not [x.withoutKinds] = .operation .not [y.withoutKinds]
      rw [hxy]
    · intro y _ _ rest rest' _ _ heq
      exact absurd heq (not_ne_neg _ _)
    · intro operator y z harity hy _ _ _ rest rest' _ _ heq
      exact absurd heq (not_ne_binary harity hx hy _ _)
  · intro x hx ih
    apply rendering_induction
    · intro b hb _ rest rest' _ _ heq
      exact absurd heq.symm (leaf_ne_operation hb (wellFormed_unary.mpr ⟨rfl, hx⟩) _ _)
    · intro y _ _ rest rest' _ _ heq
      exact absurd heq.symm (not_ne_neg _ _)
    · intro y hy _ rest rest' _ _ heq
      rw [toList_render_neg, toList_render_neg] at heq
      simp only [List.cons_append, List.append_assoc, List.cons.injEq, true_and,
        List.nil_append] at heq
      obtain ⟨hxy, hsame⟩ := ih y hy _ _ (endsWord_paren _) (endsWord_paren _) heq
      refine ⟨?_, (List.cons.inj hsame).2⟩
      show ASTNode.operation .neg [x.withoutKinds] = .operation .neg [y.withoutKinds]
      rw [hxy]
    · intro operator y z harity hy _ _ _ rest rest' _ _ heq
      exact absurd heq (neg_ne_binary harity hx hy _ _)
  · intro operator x x' harity hx hx' ih ih'
    apply rendering_induction
    · intro b hb _ rest rest' _ _ heq
      exact absurd heq.symm (leaf_ne_operation hb (wellFormed_binary.mpr ⟨harity, hx, hx'⟩) _ _)
    · intro y hy _ rest rest' _ _ heq
      exact absurd heq.symm (not_ne_binary harity hy hx _ _)
    · intro y hy _ rest rest' _ _ heq
      exact absurd heq.symm (neg_ne_binary harity hy hx _ _)
    · intro operator' y y' harity' hy hy' _ _ rest rest' _ _ heq
      rw [toList_render_binary harity, toList_render_binary harity'] at heq
      simp only [List.cons_append, List.append_assoc, List.cons.injEq, true_and,
        List.nil_append] at heq
      -- The first argument, the token and the second argument, one after the other.
      obtain ⟨hxy, heq⟩ := ih y hy _ _ (endsWord_space _) (endsWord_space _) heq
      obtain ⟨htoken, heq⟩ := eq_of_word_append (isWordChar_token operator)
        (isWordChar_token operator') (endsWord_space _) (endsWord_space _) (List.cons.inj heq).2
      obtain ⟨hxy', heq⟩ := ih' y' hy' _ _ (endsWord_paren _) (endsWord_paren _)
        (List.cons.inj heq).2
      refine ⟨?_, (List.cons.inj heq).2⟩
      show ASTNode.operation operator [x.withoutKinds, x'.withoutKinds]
        = .operation operator' [y.withoutKinds, y'.withoutKinds]
      rw [eq_of_token harity harity' (String.toList_inj.mp htoken), hxy, hxy']

end Readability

/-! ### Validated revisions -/

section Revisions

variable {symbols : List SymbolDeclaration}

/-- Validated revisions over the symbols that are rendered alike have one formula, up to the kind of
    the numeric literals. -/
def Unambiguous (symbols : List SymbolDeclaration) : Prop :=
  ∀ r r' : FormalizationRevision, r.symbols = symbols → r'.symbols = symbols →
    (validateRevision r).success = true → (validateRevision r').success = true →
    renderAst r.ast = renderAst r'.ast → r.ast.withoutKinds = r'.ast.withoutKinds

/-- `x = x`. -/
def selfEqual (x : ASTNode) : ASTNode := .operation .eq [x, x]

theorem validate_selfEqual (id : UUID) {x : ASTNode} {s : SymbolSort} {u : Option String}
    (hnodup : (symbols.map (·.name)).Nodup)
    (hissues : ∀ path, walk symbols x path = ([], some s, u)) :
    (validateRevision (.ofAst id (selfEqual x) symbols)).success = true := by
  have hx : x.inferred symbols = (some s, u) := by rw [ASTNode.inferred, hissues]
  have hunits : unitsDiffer (effectiveUnits [u, u]) = false := by
    cases u with
    | none => rfl
    | some unit =>
      rw [unitsDiffer, effectiveUnits]
      by_cases hone : unit = "1" <;> simp [hone, Option.filter]
  have hwalk : walk symbols (selfEqual x) "ast" = ([], some .boolean, none) := by
    rw [selfEqual, walk_binary rfl hx hx, hissues, hissues]
    simp [inferOperation, issueIf, areComparable, hunits]
  rw [success_iff]
  refine ⟨hnodup, congrArg Prod.fst hwalk, ?_, rfl⟩
  show (walk symbols (selfEqual x) "ast").2.1.all _ = true
  rw [hwalk]
  rfl

theorem walk_symbol (hnodup : (symbols.map (·.name)).Nodup) {d : SymbolDeclaration}
    (hd : d ∈ symbols) (path : String) :
    walk symbols (.symbol d.name) path = ([], some d.sort, d.unit.map Text.text) := by
  have hfound : declaration? symbols d.name = some d :=
    (dictGet_eq_find? hnodup _).symm.trans ((dictGet_eq_some hnodup).mpr ⟨hd, rfl⟩)
  rw [walk, hfound]

/-- **Unambiguous renderings.**  The rendering determines the formula up to the kind of its numeric
    literals exactly when no symbol is called `true` or `false`.  With a name declared twice no
    revision passes validation. -/
theorem unambiguous_iff (symbols : List SymbolDeclaration) : Unambiguous symbols
    ↔ (∀ d ∈ symbols, isBooleanWord d.name = false) ∨ ¬ (symbols.map (·.name)).Nodup := by
  constructor
  · intro h
    by_contra hnot
    rw [not_or, not_not] at hnot
    obtain ⟨hwords, hnodup⟩ := hnot
    -- A symbol `true` compared with itself reads like `true = true`.
    apply hwords
    intro d hd
    by_contra hword
    rw [Bool.not_eq_false, isBooleanWord, Bool.or_eq_true, decide_eq_true_eq,
      decide_eq_true_eq] at hword
    obtain ⟨value, hvalue⟩ : ∃ value, renderAst (.symbol d.name) = renderAst (.boolean value) := by
      rcases hword with hword | hword
      · exact ⟨true, hword⟩
      · exact ⟨false, hword⟩
    have id : UUID := ⟨"00000000-0000-4000-8000-000000000001", by decide⟩
    have hsame := h (.ofAst id (selfEqual (.symbol d.name)) symbols)
      (.ofAst id (selfEqual (.boolean value)) symbols) rfl rfl
      (validate_selfEqual id hnodup (walk_symbol hnodup hd))
      (validate_selfEqual id hnodup fun _ => rfl)
    have hrender : renderAst (selfEqual (.symbol d.name))
        = renderAst (selfEqual (.boolean value)) := by
      apply String.toList_inj.mp
      rw [selfEqual, selfEqual, toList_render_binary rfl, toList_render_binary rfl, hvalue]
    cases hsame hrender
  · rintro (hwords | hdouble) r r' rfl hr' hsuccess hsuccess' hrender
    · obtain ⟨-, hwalk, -, -⟩ := success_iff.mp hsuccess
      obtain ⟨-, hwalk', -, -⟩ := success_iff.mp hsuccess'
      have hwell : r.ast.wellFormed r.symbols = true :=
        wellFormed_of_walk (by rw [hwalk]; exact List.forall_mem_nil _)
      have hwell' : r'.ast.wellFormed r'.symbols = true :=
        wellFormed_of_walk (by rw [hwalk']; exact List.forall_mem_nil _)
      rw [hr'] at hwell'
      have hnil : EndsWord [] := by simp [EndsWord]
      refine (eq_of_append hwords _ hwell _ hwell' [] [] hnil hnil ?_).1
      rw [hrender]
    · exact absurd (success_iff.mp hsuccess).1 hdouble

/-- The symbol `true` and the literal are both rendered `true`. -/
theorem not_unambiguous : ¬ ∀ symbols : List SymbolDeclaration, Unambiguous symbols := by
  intro h
  have hsame := h [⟨⟨"true", by decide⟩, .boolean, none, rfl⟩]
    (.ofAst ⟨"00000000-0000-4000-8000-000000000001", by decide⟩ (.symbol ⟨"true", by decide⟩) _)
    (.ofAst ⟨"00000000-0000-4000-8000-000000000002", by decide⟩ (.boolean true) _) rfl rfl
    (by decide +kernel) (by decide +kernel) rfl
  cases hsame

end Revisions

end Agora.Formalization
