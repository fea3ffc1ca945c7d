import Agora.Lib.Codec
import Agora.Lib.Sha256
import Mathlib.Data.String.Basic

namespace Agora.Marl

/-!
# Values of the MARL trajectory contracts

Validated texts, exact rationals, enumerations, and the models that carry their own hash.  A
`Hashed` value is a content with a hash beside it; the hash preimage is the dump of the content,
which is the dump of the whole without its own hash field.
-/

/-! ### The runtime -/

/-- What the contracts take from the interpreter and the validation library: the spellings of a
    UUID that validation accepts, its own text among them, and how deeply nested a JSON text the
    parser reads. -/
class Runtime where
  parseUuid : String → Option UUID
  parseUuid_text : ∀ u : UUID, parseUuid u.text = some u
  recursionLimit : ℕ

/-- A UUID, written as its canonical text and read in any accepted spelling. -/
def uuidCodec [Runtime] : Codec UUID where
  dump u := Json.text u.text
  load
    | .str s => (PyStr.chars? s).bind fun cs => Runtime.parseUuid (String.ofList cs)
    | _ => none
  explicit
    | .str s => (PyStr.chars? s).any fun cs => isCanonicalUuid (String.ofList cs)
    | _ => false
  normal_dump _ := rfl
  load_dump u := by
    simp [Json.text, PyStr.ofString, Runtime.parseUuid_text]
  explicit_iff {j u} h := by
    cases j with
    | str s =>
      obtain ⟨cs, hcs, hu⟩ := Option.bind_eq_some_iff.mp h
      obtain rfl := PyStr.eq_ofChars_of_chars? hcs
      simp only [hcs, Option.any_some, Json.text, PyStr.ofString, Json.str.injEq]
      constructor
      · intro hcanonical
        -- A canonical text is read as the UUID it is the text of.
        have hself := Runtime.parseUuid_text ⟨String.ofList cs, hcanonical⟩
        rw [hu] at hself
        rw [Option.some.inj hself]
        simp
      · intro heq
        have hchars := congrArg PyStr.chars? heq
        simp only [PyStr.chars?_ofChars, Option.some.injEq] at hchars
        rw [hchars, String.ofList_toList]
        exact u.canonical
    | _ => cases h

/-! ### Validated texts -/

/-- A string that passes a validator. -/
structure Text (valid : String → Bool) where
  text : String
  isValid : valid text = true
deriving DecidableEq

theorem Text.eq_of_text_eq {valid : String → Bool} {a b : Text valid} (h : a.text = b.text) :
    a = b := by
  cases a
  cases b
  simpa using h

def Text.codec (valid : String → Bool) : Codec (Text valid) :=
  Codec.string.validated (fun s => valid s = true) (fun s h => ⟨s, h⟩) Text.text Text.isValid
    (fun _ => rfl) (fun _ _ => rfl)

def isLower (c : Char) : Bool := 'a' ≤ c && c ≤ 'z'
def isUpper (c : Char) : Bool := 'A' ≤ c && c ≤ 'Z'

/-- A first character of one kind, then at most `n` characters of another. -/
def matchesShape (first rest : Char → Bool) (n : ℕ) (s : String) : Bool :=
  match s.toList with
  | [] => false
  | c :: cs => first c && cs.all rest && decide (cs.length ≤ n)

/-- `^[a-z][a-z0-9_.-]{0,127}$`. -/
def isIdentifier : String → Bool :=
  matchesShape isLower (fun c => isLower c || c.isDigit || c = '_' || c = '.' || c = '-') 127

/-- `^[A-Za-z0-9][A-Za-z0-9_.+-]{0,127}$`. -/
def isVersion : String → Bool :=
  matchesShape (fun c => isLower c || isUpper c || c.isDigit)
    (fun c => isLower c || isUpper c || c.isDigit || c = '_' || c = '.' || c = '+' || c = '-') 127

/-- `^[A-Z][A-Z0-9_]{0,63}$`. -/
def isReason : String → Bool :=
  matchesShape isUpper (fun c => isUpper c || c.isDigit || c = '_') 63

/-- Between 1 and 64 characters. -/
def isReasonCode (s : String) : Bool := 1 ≤ s.length && s.length ≤ 64

/-- `^sha256:[0-9a-f]{64}$`. -/
def isHash (s : String) : Bool :=
  s.toList.take 7 = ['s', 'h', 'a', '2', '5', '6', ':'] && (s.toList.drop 7).length = 64
    && (s.toList.drop 7).all isHexLower

abbrev Identifier := Text isIdentifier
abbrev Version := Text isVersion
abbrev Reason := Text isReason
abbrev ReasonCode := Text isReasonCode
abbrev Hash := Text isHash

/-! ### Hashes -/

/-- `f"sha256:{sha256(b).hexdigest()}"`. -/
def sha256Hash (b : Bytes) : Hash where
  text := String.ofList (['s', 'h', 'a', '2', '5', '6', ':'] ++ Sha256.hexDigest b)
  isValid := by
    obtain ⟨hlength, hhex⟩ := Sha256.hexDigest_shape b
    simp [isHash, hlength]
    exact hhex

/-- Hash one closed preimage. -/
def canonicalHash (j : Json) : Py Hash := do
  let b ← j.canonicalJson
  pure (sha256Hash b)

theorem canonicalHash_eq_ok {j : Json} {h : Hash} :
    canonicalHash j = .ok h ↔ j.encodable = true ∧ h = sha256Hash (utf8 j.canonical) := by
  rw [canonicalHash, Except.bind_eq_ok]
  constructor
  · rintro ⟨b, hb, hhash⟩
    obtain ⟨henc, rfl⟩ := Json.canonicalJson_eq_ok.mp hb
    exact ⟨henc, (Except.ok.inj hhash).symm⟩
  · rintro ⟨henc, rfl⟩
    exact ⟨_, Json.canonicalJson_of_encodable henc, rfl⟩

/-- A content with the hash it claims. -/
structure Hashed (C : Type) where
  content : C
  hash : Hash
deriving DecidableEq

/-- A model with a hash of its own: the fields before and after the hash in key order, and the
    validators. -/
class HashedModel (C : Type) where
  {α β : Type}
  {keysBefore keysAfter : List PyStr}
  before : Fields keysBefore α
  after : Fields keysAfter β
  hashField : String
  Valid : α × β → Prop
  decValid : DecidablePred Valid
  build : ∀ t, Valid t → C
  repr : C → α × β
  holds : ∀ c, Valid (repr c)
  build_repr : ∀ c, build (repr c) (holds c) = c
  repr_build : ∀ t h, repr (build t h) = t
  ordered : Codec.Ordered (keysBefore ++ [PyStr.ofString hashField] ++ keysAfter)

theorem Text.codec_dump_ne {p : String → Bool} (t : Text p) : (Text.codec p).dump t ≠ .null := nofun

namespace Hashed

variable {C : Type} [m : HashedModel C]

/-- The hash preimage: everything but the hash. -/
def preimage (c : C) : Json := .obj ((m.before.append m.after).dump (m.repr c))

/-- The codec of the whole. -/
def codec : Codec (Hashed C) :=
  haveI := m.decValid
  (Codec.record ((m.before.field m.hashField (Text.codec isHash)).append m.after)
      m.ordered).validated (fun t => m.Valid (t.1.1, t.2))
    (fun t h => ⟨m.build (t.1.1, t.2) h, t.1.2⟩)
    (fun x => (((m.repr x.content).1, x.hash), (m.repr x.content).2))
    (fun x => m.holds x.content)
    (fun x => by simp only [Prod.mk.eta, m.build_repr])
    (fun t h => by simp only [m.repr_build])

theorem codec_dump (x : Hashed C) :
    (codec (C := C)).dump x = .obj (m.before.dump (m.repr x.content).1
      ++ (PyStr.ofString m.hashField, (Text.codec isHash).dump x.hash)
        :: m.after.dump (m.repr x.content).2) := by
  show Json.obj ((_ ++ [_]) ++ _) = _
  rw [List.append_assoc]
  rfl

theorem codec_dump_ne (x : Hashed C) : (codec (C := C)).dump x ≠ .null := nofun

/-- A model or `null`. -/
def optionCodec : Codec (Option (Hashed C)) := codec.option codec_dump_ne

/-- The constructor that computes the hash. -/
def create (c : C) : Py (Hashed C) := do
  let hash ← canonicalHash (preimage c)
  pure ⟨c, hash⟩

/-- The claimed hash is that of the preimage. -/
def HashOk (x : Hashed C) : Prop := canonicalHash (preimage x.content) = .ok x.hash

/-- `validate_hash`. -/
def validateHash (x : Hashed C) : Py Unit := do
  let expected ← canonicalHash (preimage x.content)
  if x.hash ≠ expected then
    .error (.valueError (m.hashField ++ " does not match canonical preimage"))
  else pure ()

theorem validateHash_eq_ok {x : Hashed C} : x.validateHash = .ok () ↔ x.HashOk := by
  rw [validateHash, HashOk, Except.bind_eq_ok]
  constructor
  · rintro ⟨expected, hexpected, h⟩
    split at h
    case isTrue => cases h
    case isFalse heq => rw [hexpected, not_not.mp heq]
  · intro h
    exact ⟨x.hash, h, by simp⟩

/-- A content with its own hash. -/
def sealed (c : C) : Hashed C := ⟨c, sha256Hash (utf8 (preimage c).canonical)⟩

theorem hashOk_sealed {c : C} (h : (preimage c).encodable = true) : (sealed c).HashOk := by
  rw [HashOk, canonicalHash, sealed, Json.canonicalJson_of_encodable h]
  rfl

end Hashed

/-! ### Rationals -/

/-- Canonical reduced rational with a positive denominator. -/
structure RationalV1 where
  numerator : ℤ
  denominator : ℤ
  denominator_pos : 0 < denominator
  reduced : numerator.gcd denominator = 1
deriving DecidableEq

namespace RationalV1

def zero : RationalV1 where
  numerator := 0
  denominator := 1
  denominator_pos := by decide
  reduced := by decide

def fraction (r : RationalV1) : ℚ := r.numerator / r.denominator

def codec : Codec RationalV1 :=
  (Codec.record ((Fields.one "denominator" Codec.int).field "numerator" Codec.int)
      (by decide)).validated
    (fun t => 0 < t.1 ∧ t.2.gcd t.1 = 1)
    (fun t h => ⟨t.2, t.1, h.1, h.2⟩) (fun r => (r.denominator, r.numerator))
    (fun r => ⟨r.denominator_pos, r.reduced⟩) (fun _ => rfl) (fun _ _ => rfl)

end RationalV1

/-! ### Enumerations -/

inductive EpisodeStatus where
  | «open»
  | complete
  | incomplete
deriving DecidableEq, Repr

def EpisodeStatus.value : EpisodeStatus → String
  | .open => "OPEN"
  | .complete => "COMPLETE"
  | .incomplete => "INCOMPLETE"

def EpisodeStatus.codec : Codec EpisodeStatus :=
  Codec.enum [.open, .complete, .incomplete] value (by intro a; cases a <;> decide)

inductive RewardStatus where
  | observed
  | notApplicable
  | missingInput
deriving DecidableEq, Repr

def RewardStatus.value : RewardStatus → String
  | .observed => "OBSERVED"
  | .notApplicable => "NOT_APPLICABLE"
  | .missingInput => "MISSING_INPUT"

def RewardStatus.codec : Codec RewardStatus :=
  Codec.enum [.observed, .notApplicable, .missingInput] value (by intro a; cases a <;> decide)

inductive RewardDirection where
  | higherBetter
  | lowerBetter
  | noDirection
deriving DecidableEq, Repr

def RewardDirection.value : RewardDirection → String
  | .higherBetter => "HIGHER_BETTER"
  | .lowerBetter => "LOWER_BETTER"
  | .noDirection => "NO_DIRECTION"

def RewardDirection.codec : Codec RewardDirection :=
  Codec.enum [.higherBetter, .lowerBetter, .noDirection] value (by intro a; cases a <;> decide)

inductive CreditStatus where
  | direct
  | shared
  | environment
  | neutral
deriving DecidableEq, Repr

def CreditStatus.value : CreditStatus → String
  | .direct => "DIRECT"
  | .shared => "SHARED"
  | .environment => "ENVIRONMENT"
  | .neutral => "NEUTRAL"

def CreditStatus.codec : Codec CreditStatus :=
  Codec.enum [.direct, .shared, .environment, .neutral] value (by intro a; cases a <;> decide)

inductive ActionKind where
  | speak
  | requestRetrieval
  | requestSimulation
  | endRound
  | terminate
  | escalateToHuman
deriving DecidableEq, Repr

def ActionKind.value : ActionKind → String
  | .speak => "SPEAK"
  | .requestRetrieval => "REQUEST_RETRIEVAL"
  | .requestSimulation => "REQUEST_SIMULATION"
  | .endRound => "END_ROUND"
  | .terminate => "TERMINATE"
  | .escalateToHuman => "ESCALATE_TO_HUMAN"

def ActionKind.codec : Codec ActionKind :=
  Codec.enum [.speak, .requestRetrieval, .requestSimulation, .endRound, .terminate,
    .escalateToHuman] value (by intro a; cases a <;> decide)

inductive DecisionOutcome where
  | accepted
  | rejected
  | noProposal
deriving DecidableEq, Repr

def DecisionOutcome.value : DecisionOutcome → String
  | .accepted => "ACCEPTED"
  | .rejected => "REJECTED"
  | .noProposal => "NO_PROPOSAL"

def DecisionOutcome.codec : Codec DecisionOutcome :=
  Codec.enum [.accepted, .rejected, .noProposal] value (by intro a; cases a <;> decide)

/-- `Literal["SAT", "UNSAT", "UNKNOWN"]`. -/
inductive Feasibility where
  | sat
  | unsat
  | unknown
deriving DecidableEq, Repr

def Feasibility.value : Feasibility → String
  | .sat => "SAT"
  | .unsat => "UNSAT"
  | .unknown => "UNKNOWN"

def Feasibility.codec : Codec Feasibility :=
  Codec.enum [.sat, .unsat, .unknown] value (by intro a; cases a <;> decide)

end Agora.Marl
