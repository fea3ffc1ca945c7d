import Agora.Lib.JsonRoundTrip
import Agora.Symbolic.Translation

namespace Agora.Symbolic

open Formalization Smt

/-!
# What a witness says

A witness value stands for one boolean or number (`SymbolicValue.Denotes`), so that a witness
determines the values of the symbols and the meaning of every formula (`meaning_congr`).  The witness
that is read from a model has the values of the model (`witnesses_of_witness`).
-/

/-! ### Witness values -/

/-- The value that a witness value stands for. -/
def SymbolicValue.Denotes (v : SymbolicValue) (value : Value) : Prop :=
  match v.kind with
  | .boolean => ∃ b, v.boolean = some b ∧ value = .bool (b = true)
  | .integer | .rational => ∃ n d, v.numerator = some n ∧ v.denominator = some d
      ∧ value = .num (wholeValue n.toList / wholeValue d.toList)
  | .algebraic => ∃ i x, v.rootIndex = some i
      ∧ IsRoot (v.polynomial.map fun c => wholeValue c.toList) i x ∧ value = .num x

/-- A witness value stands for one value. -/
theorem SymbolicValue.Denotes.unique {v : SymbolicValue} {a b : Value} (ha : v.Denotes a)
    (hb : v.Denotes b) : a = b := by
  unfold SymbolicValue.Denotes at ha hb
  split at ha
  case h_1 hkind =>
    rw [hkind] at hb
    obtain ⟨x, hx, rfl⟩ := ha
    obtain ⟨y, hy, rfl⟩ := hb
    rw [Option.some.inj (hx.symm.trans hy)]
  case h_2 hkind | h_3 hkind =>
    rw [hkind] at hb
    obtain ⟨n, d, hn, hd, rfl⟩ := ha
    obtain ⟨n', d', hn', hd', rfl⟩ := hb
    rw [Option.some.inj (hn.symm.trans hn'), Option.some.inj (hd.symm.trans hd')]
  case h_4 hkind =>
    rw [hkind] at hb
    obtain ⟨i, x, hi, hx, rfl⟩ := ha
    obtain ⟨j, y, hj, hy, rfl⟩ := hb
    rw [Option.some.inj (hj.symm.trans hi)] at hy
    rw [hx.unique hy]

/-- A witness gives the declared symbols, and only these, the values they have. -/
structure Witnesses (declarations : List SymbolDeclaration) (witness : List SymbolicWitnessBinding)
    (σ : Assignment) : Prop where
  names : (witness.map (·.name)).Perm (declarations.map (·.name))
  values : ∀ b ∈ witness, ∃ v, symbolValue declarations σ b.name = some v ∧ b.value.Denotes v

/-- A witness determines the values of the symbols. -/
theorem Witnesses.symbolValue_eq {declarations : List SymbolDeclaration}
    {witness : List SymbolicWitnessBinding} {σ τ : Assignment} (hσ : Witnesses declarations witness σ)
    (hτ : Witnesses declarations witness τ) :
    symbolValue declarations σ = symbolValue declarations τ := by
  funext name
  cases hd : declaration? declarations name with
  | none => rw [symbolValue, symbolValue, hd, Option.map_none, Option.map_none]
  | some declaration =>
    have hname : declaration.name = name := by simpa using List.find?_some hd
    have hmem : name ∈ witness.map (·.name) := by
      rw [hσ.names.mem_iff, ← hname]
      exact List.mem_map_of_mem (List.mem_of_find?_eq_some hd)
    obtain ⟨b, hb, rfl⟩ := List.mem_map.mp hmem
    obtain ⟨v, hv, hdenotes⟩ := hσ.values b hb
    obtain ⟨w, hw, hdenotes'⟩ := hτ.values b hb
    rw [hv, hw, hdenotes.unique hdenotes']

section SymbolValues

variable {declarations : List SymbolDeclaration} {σ τ : Assignment} {divZero : ℝ → ℝ}

mutual
/-- The meaning of a formula depends on the values of the symbols. -/
theorem meaning_congr (h : symbolValue declarations σ = symbolValue declarations τ) :
    ∀ node : ASTNode, meaning declarations σ divZero node = meaning declarations τ divZero node
  | .boolean _ | .integer _ | .real _ => rfl
  | .symbol name => congrFun h name
  | .operation operator arguments => by
    rw [meaning, meaning, meaningItems_congr h arguments]
theorem meaningItems_congr (h : symbolValue declarations σ = symbolValue declarations τ) :
    ∀ nodes : List ASTNode,
      meaningItems declarations σ divZero nodes = meaningItems declarations τ divZero nodes
  | [] => rfl
  | node :: nodes => by
    rw [meaningItems, meaningItems, meaning_congr h node, meaningItems_congr h nodes]
end

end SymbolValues

/-! ### Numbers as texts -/

theorem wholeValue_intText (n : ℤ) : wholeValue (Json.intText n) = n := by
  cases n with
  | ofNat n =>
    have hhead : ∀ cs, Nat.toDigits 10 n ≠ '-' :: cs := by
      intro cs h
      have hdigit : ('-').isDigit = true :=
        Nat.isDigit_of_mem_toDigits (b := 10) (n := n) (by decide) (by decide)
          (h ▸ List.mem_cons_self)
      exact absurd hdigit (by decide)
    rw [Json.intText, wholeValue.eq_2 _ hhead, digitsValue, Nat.ofDigitChars_ten_toDigits]
    rfl
  | negSucc n =>
    rw [Json.intText, wholeValue, digitsValue, Nat.ofDigitChars_ten_toDigits, Int.negSucc_eq]
    rfl

theorem wholeValue_pyStr {n : ℤ} {text : String} (h : pyStr n = .ok text) :
    wholeValue text.toList = n := by
  rw [pyStr] at h
  split at h
  · cases h
    rw [String.toList_ofList, wholeValue_intText]
  · cases h

/-- The printed index is read back. -/
theorem rootIndex?_sexpr {x : AlgebraicNum} {i : ℕ} (h : rootIndex? x.sexpr = some i) :
    i = x.index := by
  have hinner : (x.sexpr.drop 10).dropLast.reverse
      = (Nat.toDigits 10 x.index).reverse ++ ' ' :: x.polyText.reverse := by
    have hdrop : x.sexpr.drop 10 = x.polyText ++ ' ' :: Nat.toDigits 10 x.index ++ [')'] := by
      have hlength : "(root-obj ".toList.length = 10 := by decide
      have hsexpr : x.sexpr = "(root-obj ".toList ++ x.polyText ++ ' ' :: Nat.toDigits 10 x.index
          ++ [')'] := rfl
      generalize "(root-obj ".toList = start at hlength hsexpr
      rw [hsexpr, List.append_assoc, List.append_assoc, List.drop_left' hlength, List.append_assoc]
    rw [hdrop, List.dropLast_concat, List.reverse_append, List.reverse_cons, List.append_assoc]
    rfl
  have hdigits : ∀ c ∈ (Nat.toDigits 10 x.index).reverse, c.isDigit = true := fun c hc =>
    Nat.isDigit_of_mem_toDigits (by decide) (by decide) (List.mem_reverse.mp hc)
  have hspan : ((x.sexpr.drop 10).dropLast.reverse).span Char.isDigit
      = ((Nat.toDigits 10 x.index).reverse, ' ' :: x.polyText.reverse) := by
    rw [hinner, List.span_eq_takeWhile_dropWhile, List.takeWhile_append_of_pos hdigits,
      List.dropWhile_append_of_pos hdigits, List.takeWhile_cons_of_neg (by decide),
      List.dropWhile_cons_of_neg (by decide), List.append_nil]
  rw [rootIndex?] at h
  split at h
  · simp only [hspan, List.reverse_reverse] at h
    split at h
    · cases h
      rw [digitsValue, Nat.ofDigitChars_ten_toDigits]
    · cases h
  · cases h

/-! ### The witness of a model -/

theorem guarded_eq_ok {α : Type} {x : Py α} {a : α} : guarded x = .ok a ↔ x = .ok a := by
  cases x with
  | error e => simp [guarded, solverFailed]
  | ok b => simp [guarded]

section Model

variable {m : Model} {I : Interp} (hm : m.Describes I)
include hm

theorem denotes_encodeValue {declaration : SymbolDeclaration} {v : SymbolicValue}
    (h : encodeValue (translateDeclaration declaration).sort
      (modelValue m (translateDeclaration declaration)) = .ok v) :
    v.Denotes ((translateDeclaration declaration).value I) := by
  obtain ⟨encoded, hencoded, h⟩ := Except.bind_eq_ok.mp h
  obtain ⟨-, -, h⟩ := Except.bind_eq_ok.mp h
  cases h
  unfold translateDeclaration at hencoded ⊢
  cases hsort : declaration.sort with
  | boolean =>
    rw [hsort] at hencoded
    have hvalue := hm.bool declaration.name.text
    simp only [Translated.sort, modelValue] at hencoded
    cases hb : m.bool declaration.name.text with
    | bool b =>
      rw [hb] at hencoded hvalue
      cases hencoded
      exact ⟨b, rfl, congrArg Value.bool (propext hvalue)⟩
    | int _ | rational _ | algebraic _ | other =>
      rw [hb] at hvalue
      cases hvalue
  | integer =>
    rw [hsort] at hencoded
    have hvalue := hm.int declaration.name.text
    simp only [Translated.sort, modelValue] at hencoded
    cases hn : m.int declaration.name.text with
    | int n =>
      rw [hn] at hencoded hvalue
      obtain ⟨text, htext, hencoded⟩ := Except.bind_eq_ok.mp hencoded
      cases hencoded
      refine ⟨text, "1", rfl, rfl, ?_⟩
      rw [wholeValue_pyStr (guarded_eq_ok.mp htext)]
      show Value.num (I.int declaration.name.text) = Value.num ((n : ℝ) / ((1 : ℤ) : ℝ))
      rw [show I.int declaration.name.text = n from hvalue, Int.cast_one, div_one]
    | bool _ | rational _ | algebraic _ =>
      rw [hn] at hvalue
      cases hvalue
    | other =>
      rw [hn] at hencoded
      cases hencoded
  | real =>
    rw [hsort] at hencoded
    have hvalue := hm.real declaration.name.text
    simp only [Translated.sort, modelValue] at hencoded
    cases hx : m.real declaration.name.text with
    | rational q =>
      rw [hx] at hencoded hvalue
      obtain ⟨n, hn, hencoded⟩ := Except.bind_eq_ok.mp hencoded
      obtain ⟨d, hd, hencoded⟩ := Except.bind_eq_ok.mp hencoded
      cases hencoded
      refine ⟨n, d, rfl, rfl, ?_⟩
      rw [wholeValue_pyStr (guarded_eq_ok.mp hn), wholeValue_pyStr (guarded_eq_ok.mp hd)]
      show Value.num (I.real declaration.name.text) = _
      rw [show I.real declaration.name.text = q from hvalue, Rat.cast_def, Int.cast_natCast]
    | algebraic x =>
      rw [hx] at hencoded hvalue
      cases hindex : rootIndex? x.sexpr with
      | none =>
        simp only [encodeFields, hindex] at hencoded
        cases hencoded
      | some i =>
        simp only [encodeFields, hindex] at hencoded
        obtain ⟨poly, hpoly, hencoded⟩ := Except.bind_eq_ok.mp hencoded
        cases hencoded
        refine ⟨i, I.real declaration.name.text, rfl, ?_, rfl⟩
        have hcoefficients : poly.map (fun c => wholeValue c.toList) = x.poly := by
          rw [Except.map_eq_of_mapM (fun _ _ => wholeValue_pyStr) (guarded_eq_ok.mp hpoly),
            List.map_id']
        show IsRoot (poly.map fun c => wholeValue c.toList) i _
        rw [hcoefficients, rootIndex?_sexpr hindex]
        exact hvalue
    | bool _ | int _ =>
      rw [hx] at hvalue
      cases hvalue
    | other =>
      rw [hx] at hencoded
      cases hencoded

/-- **Witness.**  The witness has the values of the model. -/
theorem witnesses_of_witness {declarations : List SymbolDeclaration}
    {bindings : List SymbolicWitnessBinding}
    (hnodup : ((entries declarations).map Prod.fst).Nodup)
    (h : witness m (entries declarations) = .ok bindings) :
    Witnesses declarations bindings (assignment I) where
  names := by
    have hnames : bindings.map (·.name)
        = ((entries declarations).insertionSort fun a b => a.1.text ≤ b.1.text).map Prod.fst := by
      refine Except.map_eq_of_mapM (fun entry b hb => ?_) h
      obtain ⟨v, -, hb⟩ := Except.bind_eq_ok.mp hb
      cases hb
      rfl
    rw [hnames]
    have hperm := (List.perm_insertionSort (fun a b => a.1.text ≤ b.1.text)
      (entries declarations)).map Prod.fst
    rwa [entries, List.map_map] at hperm
  values := by
    intro b hb
    obtain ⟨entry, hentry, hbinding⟩ := Except.exists_of_mem_mapM h hb
    rw [List.mem_insertionSort] at hentry
    obtain ⟨declaration, hdeclaration, rfl⟩ := List.mem_map.mp hentry
    obtain ⟨v, hv, hbinding⟩ := Except.bind_eq_ok.mp hbinding
    cases hbinding
    refine ⟨(translateDeclaration declaration).value I, ?_, denotes_encodeValue hm hv⟩
    have hget : (entries declarations).get? declaration.name
        = some (translateDeclaration declaration) := by
      obtain ⟨entry, hfound⟩ := Option.isSome_iff_exists.mp
        (Symbols.get?_isSome.mpr (List.mem_map_of_mem (f := Prod.fst) hentry))
      rw [hfound]
      obtain ⟨pair, hpair, rfl⟩ := Option.map_eq_some_iff.mp hfound
      have hsame : pair.1 = declaration.name := by simpa using List.find?_some hpair
      have heq := List.inj_on_of_nodup_map hnodup (List.mem_of_find?_eq_some hpair) hentry hsame
      rw [heq]
    rw [value_translateDeclaration, hget]
    rfl

end Model

end Agora.Symbolic
