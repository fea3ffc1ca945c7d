import Agora.Lib.JsonOrder
import Agora.Lib.CanonicalJson

namespace Agora.Reasoning

/-!
# Python values as JSON

A Python value (`PyTree`) may hold tuples, floats, dictionaries with any keys and other objects;
`PyTree.jsonValue` turns those that are JSON into JSON.  Two accepted values are equal as JSON
(`PyTree.sameJson`) exactly when they have the same normal form (`PyTree.sameNormal`), and what
`json.loads` returns is accepted unchanged (`PyTree.jsonValue_ofJson`).
-/

/-! ### Python values -/

/-- The key of a dictionary: a string, or another object, told apart by a number. -/
inductive PyKey where
  | str (s : PyStr)
  | other (n : ℕ)
deriving DecidableEq

def PyKey.isStr : PyKey → Bool
  | .str _ => true
  | .other _ => false

/-- A Python value as `_json_value` looks at it. -/
inductive PyTree where
  | none
  | bool (b : Bool)
  | int (n : ℤ)
  | float (finite : Bool)
  | str (s : PyStr)
  | list (items : List PyTree)
  | tuple (items : List PyTree)
  | dict (entries : List (PyKey × PyTree))
  | other (typeName : String)

namespace PyTree

mutual
/-- No dictionary has a key twice. -/
def distinctKeys : PyTree → Bool
  | .list items | .tuple items => distinctItems items
  | .dict entries => decide (entries.map Prod.fst).Nodup && distinctEntries entries
  | _ => true
def distinctItems : List PyTree → Bool
  | [] => true
  | v :: items => distinctKeys v && distinctItems items
def distinctEntries : List (PyKey × PyTree) → Bool
  | [] => true
  | (_, v) :: entries => distinctKeys v && distinctEntries entries
end

mutual
/-- Equality as JSON: lists and tuples are arrays, the order of the keys does not matter. -/
def sameJson : PyTree → PyTree → Bool
  | .none, .none => true
  | .bool a, .bool b => a = b
  | .int m, .int n => m = n
  | .str s, .str t => s = t
  | .list xs, .list ys | .list xs, .tuple ys | .tuple xs, .list ys | .tuple xs, .tuple ys =>
    sameItems xs ys
  | .dict es, .dict fs => es.length = fs.length && sameEntries es fs
  | _, _ => false
def sameItems : List PyTree → List PyTree → Bool
  | [], [] => true
  | x :: xs, y :: ys => sameJson x y && sameItems xs ys
  | _, _ => false
/-- Every entry of the first dictionary is in the second. -/
def sameEntries : List (PyKey × PyTree) → List (PyKey × PyTree) → Bool
  | [], _ => true
  | (k, v) :: es, fs => fs.any (fun f => f.1 = k && sameJson v f.2) && sameEntries es fs
end

mutual
/-- `_json_value`. -/
def jsonValue : PyTree → Py Json
  | .str s =>
    if Json.isScalar s then .ok (.str s)
    else .error (.valueError "JSON strings must contain Unicode scalar values")
  | .none => .ok .null
  | .bool b => .ok (.bool b)
  | .int n => .ok (.int n)
  | .float finite =>
    if !finite then .error (.valueError "non-finite numbers are not JSON values")
    else .error (.valueError "floats are forbidden; use canonical decimal strings")
  | .list items | .tuple items => do
    .ok (.arr (← jsonItems items))
  | .dict entries =>
    if entries.any fun e => !e.1.isStr then .error (.valueError "JSON object keys must be strings")
    else do
      .ok (.obj (← jsonEntries entries))
  | .other typeName => .error (.valueError s!"unsupported JSON value: {typeName}")
def jsonItems : List PyTree → Py (List Json)
  | [] => .ok []
  | v :: items => do
    .ok ((← jsonValue v) :: (← jsonItems items))
def jsonEntries : List (PyKey × PyTree) → Py (List (PyStr × Json))
  | [] => .ok []
  | (.str k, v) :: entries => do
    .ok ((k, ← jsonValue v) :: (← jsonEntries entries))
  -- The keys have been looked at before.
  | (.other _, _) :: _ => .error (.valueError "JSON object keys must be strings")
end

mutual
/-- The value that `json.loads` returns for what it has read. -/
def ofJson : Json → PyTree
  | .null => .none
  | .bool b => .bool b
  | .int n => .int n
  | .float m e => .float (Json.isFinite m e)
  | .str s => .str s
  | .arr items => .list (ofItems items)
  | .obj entries => .dict (ofEntries entries)
def ofItems : List Json → List PyTree
  | [] => []
  | j :: items => ofJson j :: ofItems items
def ofEntries : List (PyStr × Json) → List (PyKey × PyTree)
  | [] => []
  | (k, v) :: entries => (.str k, ofJson v) :: ofEntries entries
end

end PyTree

/-- A Python value: its dictionaries are dictionaries. -/
structure PyValue where
  tree : PyTree
  distinct : tree.distinctKeys = true

/-! ### What is accepted -/

namespace PyTree

variable {v w : PyTree} {i j : Json}

theorem jsonItems_eq_ok : ∀ {items : List PyTree} {js : List Json}, jsonItems items = .ok js →
    List.Forall₂ (fun v j => jsonValue v = .ok j) items js
  | [], _, h => by
    cases h
    exact .nil
  | v :: items, _, h => by
    obtain ⟨j, hj, h⟩ := Except.bind_eq_ok.mp h
    obtain ⟨js, hjs, h⟩ := Except.bind_eq_ok.mp h
    cases h
    exact .cons hj (jsonItems_eq_ok hjs)

theorem jsonEntries_eq_ok : ∀ {entries : List (PyKey × PyTree)} {js : List (PyStr × Json)},
    jsonEntries entries = .ok js →
      List.Forall₂ (fun e f => e.1 = .str f.1 ∧ jsonValue e.2 = .ok f.2) entries js
  | [], _, h => by
    cases h
    exact .nil
  | (.str k, v) :: entries, _, h => by
    obtain ⟨j, hj, h⟩ := Except.bind_eq_ok.mp h
    obtain ⟨js, hjs, h⟩ := Except.bind_eq_ok.mp h
    cases h
    exact .cons ⟨rfl, hj⟩ (jsonEntries_eq_ok hjs)
  | (.other _, _) :: _, _, h => by cases h

/-- A value without repeated keys that is accepted as `j`. -/
structure Accepted (v : PyTree) (j : Json) : Prop where
  distinct : v.distinctKeys = true
  value : jsonValue v = .ok j
  encodable : j.encodable = true

/-- What an accepted value looks like. -/
inductive Form : PyTree → Json → Prop
  | none : Form .none .null
  | bool (b : Bool) : Form (.bool b) (.bool b)
  | int (n : ℤ) : Form (.int n) (.int n)
  | str (s : PyStr) : Form (.str s) (.str s)
  | list {items : List PyTree} {js : List Json} (h : List.Forall₂ Accepted items js) :
      Form (.list items) (.arr js)
  | tuple {items : List PyTree} {js : List Json} (h : List.Forall₂ Accepted items js) :
      Form (.tuple items) (.arr js)
  | dict {entries : List (PyKey × PyTree)} {js : List (PyStr × Json)}
      (hnodup : (js.map Prod.fst).Nodup) (hscalar : ∀ f ∈ js, Json.isScalar f.1 = true)
      (h : List.Forall₂ (fun e f => e.1 = .str f.1 ∧ Accepted e.2 f.2) entries js) :
      Form (.dict entries) (.obj js)

theorem forall₂_accepted {items : List PyTree} {js : List Json} (hdistinct : distinctItems items = true)
    (h : List.Forall₂ (fun v j => jsonValue v = .ok j) items js)
    (henc : Json.encodableItems js = true) : List.Forall₂ Accepted items js := by
  induction h with
  | nil => exact .nil
  | cons hv _ ih =>
    rw [distinctItems, Bool.and_eq_true] at hdistinct
    rw [Json.encodableItems, Bool.and_eq_true] at henc
    exact .cons ⟨hdistinct.1, hv, henc.1⟩ (ih hdistinct.2 henc.2)

theorem forall₂_accepted_entries {entries : List (PyKey × PyTree)} {js : List (PyStr × Json)}
    (hdistinct : distinctEntries entries = true)
    (h : List.Forall₂ (fun e f => e.1 = .str f.1 ∧ jsonValue e.2 = .ok f.2) entries js)
    (henc : Json.encodableEntries js = true) :
    List.Forall₂ (fun e f => e.1 = .str f.1 ∧ Accepted e.2 f.2) entries js := by
  induction h with
  | nil => exact .nil
  | cons hv _ ih =>
    rw [distinctEntries, Bool.and_eq_true] at hdistinct
    rw [Json.encodableEntries, Bool.and_eq_true, Bool.and_eq_true] at henc
    exact .cons ⟨hv.1, hdistinct.1, hv.2, henc.1.2⟩ (ih hdistinct.2 henc.2)

/-- The keys of an object are those of the dictionary. -/
theorem map_str_fst {entries : List (PyKey × PyTree)} {js : List (PyStr × Json)}
    {R : PyTree → Json → Prop} (h : List.Forall₂ (fun e f => e.1 = .str f.1 ∧ R e.2 f.2) entries js) :
    (js.map Prod.fst).map PyKey.str = entries.map Prod.fst := by
  induction h with
  | nil => rfl
  | cons hv _ ih => rw [List.map_cons, List.map_cons, List.map_cons, ih, hv.1]

theorem Accepted.form (h : Accepted v j) : Form v j := by
  obtain ⟨hdistinct, hvalue, henc⟩ := h
  have harray {items : List PyTree} (hvalue : (do .ok (Json.arr (← jsonItems items))) = .ok j)
      (hdistinct : distinctItems items = true) :
      ∃ js, j = .arr js ∧ List.Forall₂ Accepted items js := by
    obtain ⟨js, hjs, hj⟩ := Except.bind_eq_ok.mp hvalue
    cases hj
    exact ⟨js, rfl, forall₂_accepted hdistinct (jsonItems_eq_ok hjs) henc⟩
  cases v with
  | none => cases hvalue; exact .none
  | bool b => cases hvalue; exact .bool b
  | int n => cases hvalue; exact .int n
  | float finite => cases finite <;> cases hvalue
  | str s =>
    rw [jsonValue] at hvalue
    split_ifs at hvalue
    cases hvalue
    exact .str s
  | list items =>
    obtain ⟨js, rfl, h⟩ := harray hvalue hdistinct
    exact .list h
  | tuple items =>
    obtain ⟨js, rfl, h⟩ := harray hvalue hdistinct
    exact .tuple h
  | dict entries =>
    rw [distinctKeys, Bool.and_eq_true, decide_eq_true_eq] at hdistinct
    rw [jsonValue] at hvalue
    split_ifs at hvalue
    obtain ⟨js, hjs, hj⟩ := Except.bind_eq_ok.mp hvalue
    cases hj
    have hentries := forall₂_accepted_entries hdistinct.2 (jsonEntries_eq_ok hjs) henc
    refine .dict ?_ (fun f hf => (Json.encodableEntries_iff.mp henc f hf).1) hentries
    apply List.Nodup.of_map PyKey.str
    rw [map_str_fst hentries]
    exact hdistinct.1
  | other t => cases hvalue

end PyTree

/-! ### Equality as JSON -/

namespace PyTree

variable {v w : PyTree} {i j : Json}

theorem sameEntries_iff {es fs : List (PyKey × PyTree)} : sameEntries es fs = true
    ↔ ∀ e ∈ es, ∃ f ∈ fs, f.1 = e.1 ∧ sameJson e.2 f.2 = true := by
  induction es with
  | nil => simp [sameEntries]
  | cons e es ih => simp [sameEntries, ih]

/-- The entries of dictionaries correspond to members of the objects. -/
theorem exists_of_forall₂ {α β : Type} {R : α → β → Prop} {xs : List α} {ys : List β}
    (h : List.Forall₂ R xs ys) :
    (∀ x ∈ xs, ∃ y ∈ ys, R x y) ∧ ∀ y ∈ ys, ∃ x ∈ xs, R x y := by
  induction h with
  | nil => simp
  | cons hxy _ ih =>
    refine ⟨?_, ?_⟩
    · exact List.forall_mem_cons.mpr ⟨⟨_, List.mem_cons_self, hxy⟩, fun x hx =>
        (ih.1 x hx).imp fun y hy => ⟨List.mem_cons_of_mem _ hy.1, hy.2⟩⟩
    · exact List.forall_mem_cons.mpr ⟨⟨_, List.mem_cons_self, hxy⟩, fun y hy =>
        (ih.2 y hy).imp fun x hx => ⟨List.mem_cons_of_mem _ hx.1, hx.2⟩⟩

/-- What is to be shown of a value: it is the same as another exactly when both are read as the
    same normal form. -/
def SameNormal (v : PyTree) : Prop :=
  ∀ (w : PyTree) (i j : Json), Accepted v i → Accepted w j →
    (sameJson v w = true ↔ i.normalize = j.normalize)

/-- Arrays are compared item by item. -/
theorem sameItems_iff {xs ys : List PyTree} {is js : List Json} (h : ∀ x ∈ xs, SameNormal x)
    (hxs : List.Forall₂ Accepted xs is) (hys : List.Forall₂ Accepted ys js) :
    sameItems xs ys = true ↔ Json.mapItems sortByKey is = Json.mapItems sortByKey js := by
  induction hxs generalizing ys js with
  | nil => cases hys <;> simp [sameItems, Json.mapItems]
  | cons hx _ ih =>
    rw [List.forall_mem_cons] at h
    cases hys with
    | nil => simp [sameItems, Json.mapItems]
    | cons hy hys =>
      rw [sameItems, Bool.and_eq_true, h.1 _ _ _ hx hy, ih h.2 hys, Json.mapItems, Json.mapItems,
        List.cons.injEq]
      rfl

/-- Dictionaries are compared by their entries. -/
theorem sameEntries_iff_normalize {es fs : List (PyKey × PyTree)} {is js : List (PyStr × Json)}
    (h : ∀ e ∈ es, SameNormal e.2) (hnodup : (is.map Prod.fst).Nodup)
    (hscalar : ∀ f ∈ is, Json.isScalar f.1 = true)
    (hes : List.Forall₂ (fun e f => e.1 = .str f.1 ∧ Accepted e.2 f.2) es is)
    (hfs : List.Forall₂ (fun e f => e.1 = .str f.1 ∧ Accepted e.2 f.2) fs js) :
    (es.length = fs.length ∧ sameEntries es fs = true)
      ↔ sortByKey (Json.mapEntries sortByKey is) = sortByKey (Json.mapEntries sortByKey js) := by
  have hmap (ks : List (PyStr × Json)) :
      Json.mapEntries sortByKey ks = ks.map fun e => (e.1, e.2.normalize) := by
    induction ks with
    | nil => rfl
    | cons e ks ih =>
      rw [Json.mapEntries, ih, List.map_cons]
      rfl
  have hkeys : ((is.map fun e => (e.1, e.2.normalize)).map Prod.fst).Nodup := by
    rw [List.map_map]
    exact hnodup
  rw [hmap, hmap, sortByKey_eq_iff hkeys (List.forall_mem_map.mpr hscalar), List.length_map, List.length_map, hes.length_eq,
    hfs.length_eq, sameEntries_iff, List.forall_mem_map]
  refine and_congr_right fun _ => ⟨fun hsame e he => ?_, fun hsame e he => ?_⟩
  · -- A member of the first object has an entry, which has one in the second dictionary.
    obtain ⟨d, hd, hkey, haccepted⟩ := (exists_of_forall₂ hes).2 e he
    obtain ⟨f, hf, hkey', hvalue⟩ := hsame d hd
    obtain ⟨g, hg, hkey'', haccepted'⟩ := (exists_of_forall₂ hfs).1 f hf
    refine List.mem_map.mpr ⟨g, hg, Prod.ext ?_ ?_⟩
    · apply PyKey.str.inj
      rw [← hkey'', hkey', hkey]
    · exact ((h d hd _ _ _ haccepted haccepted').mp hvalue).symm
  · obtain ⟨f, hf, hkey, haccepted⟩ := (exists_of_forall₂ hes).1 e he
    obtain ⟨g, hg, heq⟩ := List.mem_map.mp (hsame f hf)
    obtain ⟨hkey', hvalue⟩ := Prod.mk.inj heq
    obtain ⟨d, hd, hkey'', haccepted'⟩ := (exists_of_forall₂ hfs).2 g hg
    refine ⟨d, hd, ?_, (h e he _ _ _ haccepted haccepted').mpr hvalue.symm⟩
    rw [hkey'', hkey', hkey]

mutual
/-- **Equality.**  Accepted values are the same exactly when their normal forms are equal. -/
theorem sameNormal : ∀ v : PyTree, SameNormal v
  | .none | .bool _ | .int _ | .str _ => by
    intro w i j hv hw
    cases hv.form
    cases hw.form <;> simp [sameJson, Json.normalize, Json.mapObjects]
  | .float _ | .other _ => by
    intro w i j hv hw
    cases hv.form
  | .list xs => by
    intro w i j hv hw
    cases hv.form with
    | list hxs =>
      have hsame {ys} {js} := @sameItems_iff xs ys _ js (sameNormal_items xs) hxs
      cases hw.form with
      | list hys | tuple hys => simp [sameJson, Json.normalize, Json.mapObjects, hsame hys]
      | _ => simp [sameJson, Json.normalize, Json.mapObjects]
  | .tuple xs => by
    intro w i j hv hw
    cases hv.form with
    | tuple hxs =>
      have hsame {ys} {js} := @sameItems_iff xs ys _ js (sameNormal_items xs) hxs
      cases hw.form with
      | list hys | tuple hys => simp [sameJson, Json.normalize, Json.mapObjects, hsame hys]
      | _ => simp [sameJson, Json.normalize, Json.mapObjects]
  | .dict es => by
    intro w i j hv hw
    cases hv.form with
    | dict hnodup hscalar hes =>
      cases hw.form with
      | dict _ _ hfs =>
        have hsame := sameEntries_iff_normalize (sameNormal_entries es) hnodup hscalar hes hfs
        simp [sameJson, Json.normalize, Json.mapObjects, ← hsame]
      | _ => simp [sameJson, Json.normalize, Json.mapObjects]
theorem sameNormal_items : ∀ items : List PyTree, ∀ v ∈ items, SameNormal v
  | [] => by simp
  | v :: items => List.forall_mem_cons.mpr ⟨sameNormal v, sameNormal_items items⟩
theorem sameNormal_entries : ∀ entries : List (PyKey × PyTree), ∀ e ∈ entries, SameNormal e.2
  | [] => by simp
  | (_, v) :: entries => List.forall_mem_cons.mpr ⟨sameNormal v, sameNormal_entries entries⟩
end

mutual
/-- An accepted value has no key twice. -/
theorem uniqueKeys_of_accepted : ∀ (v : PyTree) (j : Json), Accepted v j → j.uniqueKeys = true
  | .none, _, h | .bool _, _, h | .int _, _, h | .str _, _, h | .float _, _, h | .other _, _, h => by
    cases h.form <;> rfl
  | .list items, _, h => by
    cases h.form with
    | list hitems => exact uniqueKeys_of_items items _ hitems
  | .tuple items, _, h => by
    cases h.form with
    | tuple hitems => exact uniqueKeys_of_items items _ hitems
  | .dict entries, _, h => by
    cases h.form with
    | dict hnodup _ hentries =>
      show (decide _ && _) = true
      rw [decide_eq_true hnodup, Bool.true_and]
      exact uniqueKeys_of_entries entries _ hentries
theorem uniqueKeys_of_items : ∀ (items : List PyTree) (js : List Json),
    List.Forall₂ Accepted items js → Json.allItems (fun ks => decide ks.Nodup) js = true
  | [], _, h => by
    cases h
    rfl
  | v :: items, _, h => by
    cases h with
    | cons hv hitems =>
      exact Bool.and_eq_true_iff.mpr
        ⟨uniqueKeys_of_accepted v _ hv, uniqueKeys_of_items items _ hitems⟩
theorem uniqueKeys_of_entries : ∀ (entries : List (PyKey × PyTree)) (js : List (PyStr × Json)),
    List.Forall₂ (fun e f => e.1 = .str f.1 ∧ Accepted e.2 f.2) entries js →
      Json.allEntries (fun ks => decide ks.Nodup) js = true
  | [], _, h => by
    cases h
    rfl
  | (_, v) :: entries, _, h => by
    cases h with
    | cons hv hentries =>
      exact Bool.and_eq_true_iff.mpr
        ⟨uniqueKeys_of_accepted v _ hv.2, uniqueKeys_of_entries entries _ hentries⟩
end

/-! ### Values that have been read -/

@[simp] theorem keys_ofEntries (entries : List (PyStr × Json)) :
    (ofEntries entries).map Prod.fst = (entries.map Prod.fst).map PyKey.str := by
  induction entries with
  | nil => rfl
  | cons e entries ih => rw [ofEntries, List.map_cons, List.map_cons, List.map_cons, ih]

mutual
theorem distinctKeys_ofJson : ∀ j : Json, j.uniqueKeys = true → (ofJson j).distinctKeys = true
  | .null, _ | .bool _, _ | .int _, _ | .float _ _, _ | .str _, _ => rfl
  | .arr items, h => distinctItems_ofItems items h
  | .obj entries, h => by
    obtain ⟨hnodup, hentries⟩ := Bool.and_eq_true_iff.mp h
    rw [ofJson, distinctKeys, keys_ofEntries, Bool.and_eq_true, decide_eq_true_eq]
    refine ⟨?_, distinctEntries_ofEntries entries hentries⟩
    exact (of_decide_eq_true hnodup).map fun _ _ => PyKey.str.inj
theorem distinctItems_ofItems : ∀ items : List Json,
    Json.allItems (fun ks => decide ks.Nodup) items = true → distinctItems (ofItems items) = true
  | [], _ => rfl
  | j :: items, h => by
    obtain ⟨hj, hitems⟩ := Bool.and_eq_true_iff.mp h
    exact Bool.and_eq_true_iff.mpr ⟨distinctKeys_ofJson j hj, distinctItems_ofItems items hitems⟩
theorem distinctEntries_ofEntries : ∀ entries : List (PyStr × Json),
    Json.allEntries (fun ks => decide ks.Nodup) entries = true →
      distinctEntries (ofEntries entries) = true
  | [], _ => rfl
  | (_, v) :: entries, h => by
    obtain ⟨hv, hentries⟩ := Bool.and_eq_true_iff.mp h
    exact Bool.and_eq_true_iff.mpr
      ⟨distinctKeys_ofJson v hv, distinctEntries_ofEntries entries hentries⟩
end

/-- All keys of a value that has been read are strings. -/
theorem any_ofEntries (entries : List (PyStr × Json)) :
    ((ofEntries entries).any fun e => !e.1.isStr) = false := by
  induction entries with
  | nil => rfl
  | cons e entries ih =>
    rw [ofEntries, List.any_cons, ih]
    rfl

mutual
/-- What has been read is accepted unchanged. -/
theorem jsonValue_ofJson : ∀ j : Json, j.encodable = true → jsonValue (ofJson j) = .ok j
  | .null, _ | .bool _, _ | .int _, _ => rfl
  | .str _, h => if_pos h
  | .arr items, h => by
    rw [ofJson, jsonValue, jsonItems_ofItems items h, Except.ok_bind]
  | .obj entries, h => by
    rw [ofJson, jsonValue, any_ofEntries, jsonEntries_ofEntries entries h]
    rfl
theorem jsonItems_ofItems : ∀ items : List Json, Json.encodableItems items = true →
    jsonItems (ofItems items) = .ok items
  | [], _ => rfl
  | j :: items, h => by
    rw [Json.encodableItems, Bool.and_eq_true] at h
    rw [ofItems, jsonItems, jsonValue_ofJson j h.1, Except.ok_bind, jsonItems_ofItems items h.2,
      Except.ok_bind]
theorem jsonEntries_ofEntries : ∀ entries : List (PyStr × Json),
    Json.encodableEntries entries = true → jsonEntries (ofEntries entries) = .ok entries
  | [], _ => rfl
  | (_, v) :: entries, h => by
    rw [Json.encodableEntries, Bool.and_eq_true, Bool.and_eq_true] at h
    rw [ofEntries, jsonEntries, jsonValue_ofJson v h.1.2, Except.ok_bind,
      jsonEntries_ofEntries entries h.2, Except.ok_bind]
end

end PyTree

end Agora.Reasoning
