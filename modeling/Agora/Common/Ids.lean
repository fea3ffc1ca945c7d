import Agora.Lib.HexText
import Agora.Lib.JsonText

namespace Agora.Ids

/-!
# Public identifiers

Every resource is shown under a prefix and the 32 digits of its UUID, and read back from them.  The
reader wants a time-ordered UUID, except of manifests and replay steps; the writer shows whatever UUID it
is given, and most of what the program stores has a UUID that was derived from a name or drawn.
`roundTrip_iff` says for which of them the two agree.
-/

/-! ### Time-ordered UUIDs -/

/-- `uuid7`: the clock in milliseconds, and 74 random bits. -/
def uuid7 (now : ℤ) (rand : Fin (2 ^ 74)) : Py UUID :=
  if ¬(0 ≤ now ∧ now < 2 ^ 48) then
    .error (.valueError ("timestamp does not fit in 48 bits: " ++ toString now))
  else
    let randA := (rand.val >>> 62) &&& 0x0FFF
    let randB := rand.val &&& (2 ^ 62 - 1)
    .ok (.ofInt (((((now.toNat &&& 0xFFFFFFFFFFFF) <<< 80) ||| (0x7 <<< 76)) ||| (randA <<< 64))
      ||| (0b10 <<< 62) ||| randB))

/-- The five fields do not overlap. -/
theorem version_fields {stamp randA randB : ℕ} (hstamp : stamp < 2 ^ 48) (hA : randA < 2 ^ 12)
    (hB : randB < 2 ^ 62) :
    (UUID.ofInt ((((stamp <<< 80) ||| (0x7 <<< 76)) ||| (randA <<< 64)) ||| (0b10 <<< 62) ||| randB)).version
      = some 7 := by
  have hbelow {n width i : ℕ} (hn : n < 2 ^ width) (hi : width ≤ i) : n.testBit i = false :=
    Nat.testBit_lt_two_pow (lt_of_lt_of_le hn (Nat.pow_le_pow_right Nat.two_pos hi))
  have hshift {n width k : ℕ} (hn : n < 2 ^ width) (hk : width + k ≤ 128) : n <<< k < 2 ^ 128 := by
    rw [Nat.shiftLeft_eq]
    calc n * 2 ^ k < 2 ^ width * 2 ^ k := Nat.mul_lt_mul_of_pos_right hn (Nat.two_pow_pos k)
      _ = 2 ^ (width + k) := (Nat.pow_add 2 width k).symm
      _ ≤ 2 ^ 128 := Nat.pow_le_pow_right Nat.two_pos hk
  apply UUID.version_ofInt
  · refine Nat.or_lt_two_pow (Nat.or_lt_two_pow (Nat.or_lt_two_pow (Nat.or_lt_two_pow ?_ ?_) ?_) ?_) ?_
    · exact hshift hstamp (by decide)
    · decide
    · exact hshift hA (by decide)
    · decide
    · exact Nat.lt_of_lt_of_le hB (by decide)
  · simp only [Nat.testBit_or]
    rw [show Nat.testBit (0b10 <<< 62) 63 = true by decide]
    simp
  · simp only [Nat.testBit_or]
    rw [show Nat.testBit (0b10 <<< 62) 62 = false by decide,
      show Nat.testBit (0x7 <<< 76) 62 = false by decide, hbelow hB (le_refl 62)]
    simp [Nat.testBit_shiftLeft]
  · decide
  · intro i hi
    have hversion : ∀ i < 4, Nat.testBit (0x7 <<< 76) (76 + i) = Nat.testBit 7 i := by decide
    have hlayout : ∀ i < 4, Nat.testBit (0b10 <<< 62) (76 + i) = false := by decide
    simp only [Nat.testBit_or]
    rw [hversion i hi, hlayout i hi, hbelow hB (by omega), Nat.testBit_shiftLeft,
      Nat.testBit_shiftLeft, hbelow hA (by omega)]
    simp [Nat.not_le.mpr (show 76 + i < 80 by omega)]

/-- A time-ordered UUID says so. -/
theorem version_uuid7 {now : ℤ} {rand : Fin (2 ^ 74)} {v : UUID} (h : uuid7 now rand = .ok v) :
    v.version = some 7 := by
  unfold uuid7 at h
  split_ifs at h with hnow
  obtain rfl := Except.ok.inj h
  apply version_fields
  · exact Nat.lt_of_le_of_lt Nat.and_le_right (by decide)
  · exact Nat.lt_of_le_of_lt Nat.and_le_right (by decide)
  · exact Nat.lt_of_le_of_lt Nat.and_le_right (by decide)

/-! ### Prefixes -/

/-- `ID_PREFIXES`. -/
def idPrefixes : List (String × String) :=
  [("workspace", "ws"), ("user", "usr"), ("session", "ses"), ("artifact", "art"), ("agent", "agt"),
   ("round", "rnd"), ("event", "evt"), ("evidence", "evi"), ("proposition", "prp"),
   ("critique", "crt"), ("recommendation", "rec"), ("consensus_result", "csr"), ("service", "svc"),
   ("policy", "pol"), ("document", "doc"), ("chunk", "chk"), ("source", "src"), ("namespace", "kns"),
   ("citation", "cit"), ("impact_report", "imr"), ("source_retraction", "srt"), ("graph_node", "gnd"),
   ("graph_edge", "ged"), ("experiment", "exp"), ("formalization", "frm"),
   ("symbolic_evaluation", "sev"), ("run", "run"), ("manifest", "man"), ("replay_step", "rps"),
   ("replay_result", "rpr")]

def unknownResource (resource : String) : PyException :=
  .lookupError ("unknown resource '" ++ resource ++ "'")

/-- `public_id`. -/
def publicId (resource : String) (value : UUID) : Py String :=
  match idPrefixes.lookup resource with
  | none => .error (unknownResource resource)
  | some short => .ok (String.ofList (short.toList ++ '_' :: value.hex))

/-- The resources whose ids may be derived from a name. -/
def derivedResources : List String := ["manifest", "replay_step"]

/-- `parse_id`.  Lower case is decided on ASCII: a letter of another script is not read as a digit, and
    both checks raise the same. -/
def parseId (resource value : String) : Py UUID :=
  match idPrefixes.lookup resource with
  | none => .error (unknownResource resource)
  | some short =>
    let expected := short.toList ++ ['_']
    let body := value.toList.drop expected.length
    if ¬expected.isPrefixOf value.toList then
      .error (.valueError ("expected a " ++ short ++ "_ identifier"))
    else if body.length ≠ 32 ∨ body.map Char.toLower ≠ body then
      .error (.valueError ("expected a canonical " ++ short ++ "_ identifier"))
    else match UUID.ofHexText body with
      | .error _ => .error (.valueError ("expected a canonical " ++ short ++ "_ identifier"))
      | .ok parsed =>
        if resource ∉ derivedResources ∧ parsed.version ≠ some 7 then
          .error (.valueError ("expected a UUIDv7 " ++ short ++ "_ identifier"))
        else .ok parsed

/-! ### Writing and reading -/

theorem publicId_eq_ok {resource short : String} (h : idPrefixes.lookup resource = some short)
    (value : UUID) :
    publicId resource value = .ok (String.ofList (short.toList ++ '_' :: value.hex)) := by
  rw [publicId, h]

/-- **Reading what was written.**  Only the version is left to check. -/
theorem parseId_publicId {resource short : String} (h : idPrefixes.lookup resource = some short)
    (value : UUID) :
    parseId resource (String.ofList (short.toList ++ '_' :: value.hex))
      = if resource ∉ derivedResources ∧ value.version ≠ some 7 then
          .error (.valueError ("expected a UUIDv7 " ++ short ++ "_ identifier"))
        else .ok value := by
  obtain ⟨-, hlength, hdigits⟩ := value.text_eq_dashed
  have hsplit : short.toList ++ '_' :: value.hex = (short.toList ++ ['_']) ++ value.hex := by simp
  have hlower : value.hex.map Char.toLower = value.hex := map_digits hdigits (by decide)
  unfold parseId
  rw [h]
  simp only [String.toList_ofList]
  rw [hsplit, if_neg (not_not_intro (List.isPrefixOf_iff_prefix.mpr (List.prefix_append _ _))),
    List.drop_left, if_neg (by simp [hlength, hlower]), UUID.ofHexText_digits hdigits hlength]
  simp only
  rw [← UUID.int, UUID.ofInt_int]

/-- The last 32 characters. -/
def lastDigits (value : String) : List Char := value.toList.drop (value.toList.length - 32)

/-- What an accepted text looks like. -/
theorem parseId_eq_ok {resource value : String} {v : UUID} (h : parseId resource value = .ok v) :
    ∃ short, idPrefixes.lookup resource = some short ∧ (lastDigits value).length = 32
      ∧ value.toList = short.toList ++ '_' :: lastDigits value
      ∧ UUID.ofHexText (lastDigits value) = .ok v := by
  unfold parseId at h
  cases hshort : idPrefixes.lookup resource with
  | none =>
    rw [hshort] at h
    cases h
  | some short =>
    rw [hshort] at h
    simp only at h
    split_ifs at h with hprefix hbody
    obtain ⟨body, hvalue⟩ := List.isPrefixOf_iff_prefix.mp hprefix
    rw [not_or, Decidable.not_not, ← hvalue, List.drop_left] at hbody
    have hlast : lastDigits value = body := by
      rw [lastDigits, ← hvalue, List.length_append, hbody.1, Nat.add_sub_cancel, List.drop_left]
    rw [← hvalue, List.drop_left] at h
    rw [hlast]
    refine ⟨short, rfl, hbody.1, by rw [← hvalue]; simp, ?_⟩
    cases hread : UUID.ofHexText body with
    | error e =>
      rw [hread] at h
      cases h
    | ok parsed =>
      rw [hread] at h
      simp only at h
      split_ifs at h
      obtain rfl := Except.ok.inj h
      rfl

/-- **Writing what was read.**  It is the same text when that ended in 32 digits. -/
theorem publicId_parseId {resource value : String} {v : UUID} (h : parseId resource value = .ok v) :
    publicId resource v = .ok value ↔ (lastDigits value).all isHexLower = true := by
  obtain ⟨short, hshort, hlength, hvalue, hread⟩ := parseId_eq_ok h
  rw [publicId_eq_ok hshort, List.all_eq_true]
  constructor
  · intro heq
    have htext := congrArg String.toList (Except.ok.inj heq)
    rw [String.toList_ofList, hvalue] at htext
    have hsame : v.hex = lastDigits value := by simpa using htext
    rw [← hsame]
    exact v.text_eq_dashed.2.2
  · intro hdigits
    rw [UUID.ofHexText_digits hdigits hlength] at hread
    obtain rfl := Except.ok.inj hread
    have hback := hexDigits_hexNumber hdigits
    rw [hlength] at hback
    rw [UUID.hex_ofInt, hback, ← hvalue, String.ofList_toList]

/-- The text that stands for the UUID in the API, and what the reader makes of it. -/
def roundTrip (resource : String) (value : UUID) : Py UUID :=
  publicId resource value >>= parseId resource

/-- A UUID comes back if it is time-ordered, or of a resource whose ids may be derived. -/
theorem roundTrip_eq_ok {resource short : String} (h : idPrefixes.lookup resource = some short)
    (value : UUID) :
    roundTrip resource value = .ok value ↔ resource ∈ derivedResources ∨ value.version = some 7 := by
  rw [roundTrip, publicId_eq_ok h]
  show parseId resource _ = _ ↔ _
  rw [parseId_publicId h]
  split_ifs with hversion
  · simp only [false_iff]
    tauto
  · simp only [true_iff]
    tauto

end Agora.Ids
