import Agora.Lib.Json
import Agora.Lib.Python
import Agora.Lib.Replace

namespace Agora.Observability

/-!
# Redaction of log lines

Every log line passes through `scrubSecrets`: what stands under a key that looks like a secret is
replaced, and the registered secrets are replaced in all texts.  What is put in their place is
`[redacted]`, so a secret with no square bracket that is not a part of `redacted` never occurs in
a line again (`scrubSecrets_clean`).
-/

/-! ### Secrets -/

/-- `_REDACTED`. -/
def redacted : PyStr := .ofString "[redacted]"

/-- The registered secrets, in any order. -/
structure SecretLiterals where
  literals : List PyStr
  long : ∀ literal ∈ literals, 6 ≤ literal.length

/-- `register_secret_literal`. -/
def registerSecretLiteral (value : PyStr) (secrets : SecretLiterals) : SecretLiterals :=
  if h : 6 ≤ value.length then
    ⟨secrets.literals.insert value, fun literal hliteral => by
      rcases List.mem_insert_iff.mp hliteral with rfl | hold
      · exact h
      · exact secrets.long literal hold⟩
  else secrets

theorem mem_registerSecretLiteral {value literal : PyStr} {secrets : SecretLiterals} :
    literal ∈ (registerSecretLiteral value secrets).literals
      ↔ literal ∈ secrets.literals ∨ literal = value ∧ 6 ≤ value.length := by
  unfold registerSecretLiteral
  split_ifs with hlong
  · rw [List.mem_insert_iff]
    simp [hlong, or_comm]
  · simp [hlong]

/-- Letters that `re.IGNORECASE` takes for one in ASCII. -/
def foldCase : CodePoint → CodePoint
  | .scalar c =>
    if 'A' ≤ c ∧ c ≤ 'Z' then .scalar (Char.ofNat (c.toNat + 32))
    else if c = '\u017F' then .scalar 's'
    else if c = '\u212A' then .scalar 'k'
    else if c = '\u0130' ∨ c = '\u0131' then .scalar 'i'
    else .scalar c
  | .surrogate n => .surrogate n

/-- The alternatives of `_SECRET_KEY_PATTERN`. -/
def secretWords : List String :=
  ["password", "passwd", "secret", "token", "apikey", "api_key", "api-key", "authorization", "credential",
    "accesskey", "access_key", "access-key"]

/-- `_SECRET_KEY_PATTERN.search(key)`. -/
def isSecretKey (key : PyStr) : Bool :=
  secretWords.any fun word => decide (PyStr.ofString word <:+: key.map foldCase)

example : isSecretKey (.ofString "X-Api_KEY-id") = true := by decide +kernel

/-! ### Values -/

/-- What is logged.  The keys of a mapping are given by their `str`, and a value that is no text and has no
    parts by its `str`, too. -/
inductive LogValue where
  | none
  | text (s : PyStr)
  | mapping (entries : List (PyStr × LogValue))
  | list (items : List LogValue)
  | tuple (items : List LogValue)
  | other (s : PyStr)

section Scrub

variable (secrets : SecretLiterals)

/-- `redact_text`. -/
def redactText (text : PyStr) : PyStr := replaceEach secrets.literals redacted text

mutual
/-- `_scrub_value`. -/
def scrubValue : LogValue → LogValue
  | .none => .none
  | .text s => .text (redactText secrets s)
  | .mapping entries => .mapping (scrubEntries entries)
  | .list items => .list (scrubItems items)
  | .tuple items => .tuple (scrubItems items)
  | .other s => .other s
def scrubEntries : List (PyStr × LogValue) → List (PyStr × LogValue)
  | [] => []
  | (key, item) :: entries =>
    (key, if isSecretKey key then .text redacted else scrubValue item) :: scrubEntries entries
def scrubItems : List LogValue → List LogValue
  | [] => []
  | item :: items => scrubValue item :: scrubItems items
end

/-- `not in (None, "")`. -/
def isGiven : LogValue → Bool
  | .none => false
  | .text s => !s.isEmpty
  | _ => true

/-- One turn of the loop of `_scrub_secrets`. -/
def scrubEntry (entry : PyStr × LogValue) : PyStr × LogValue :=
  if isSecretKey entry.1 then
    if isGiven entry.2 then (entry.1, .text redacted) else entry
  else (entry.1, scrubValue secrets entry.2)

/-- `str(value)`, where that of a mapping, a list or a tuple is a parameter. -/
def LogValue.str (repr : LogValue → PyStr) : LogValue → PyStr
  | .none => .ofString "None"
  | .text s => s
  | .other s => s
  | value => repr value

/-- The key of the message. -/
def eventKey : PyStr := .ofString "event"

/-- `_scrub_secrets`. -/
def scrubSecrets (repr : LogValue → PyStr) (eventDict : List (PyStr × LogValue)) :
    List (PyStr × LogValue) :=
  let scrubbed := eventDict.map (scrubEntry secrets)
  let event := ((scrubbed.find? (·.1 = eventKey)).map Prod.snd).getD (.text [])
  keyedSet Prod.fst scrubbed (eventKey, .text (redactText secrets (event.str repr)))

end Scrub

/-! ### What is left -/

mutual
/-- The texts in a value. -/
def texts : LogValue → List PyStr
  | .none => []
  | .text s => [s]
  | .mapping entries => textsOfEntries entries
  | .list items => textsOfItems items
  | .tuple items => textsOfItems items
  | .other _ => []
def textsOfEntries : List (PyStr × LogValue) → List PyStr
  | [] => []
  | (_, item) :: entries => texts item ++ textsOfEntries entries
def textsOfItems : List LogValue → List PyStr
  | [] => []
  | item :: items => texts item ++ textsOfItems items
end

mutual
/-- The entries of the mappings in a value. -/
def nested : LogValue → List (PyStr × LogValue)
  | .none => []
  | .text _ => []
  | .mapping entries => nestedInEntries entries
  | .list items => nestedInItems items
  | .tuple items => nestedInItems items
  | .other _ => []
def nestedInEntries : List (PyStr × LogValue) → List (PyStr × LogValue)
  | [] => []
  | (key, item) :: entries => (key, item) :: (nested item ++ nestedInEntries entries)
def nestedInItems : List LogValue → List (PyStr × LogValue)
  | [] => []
  | item :: items => nested item ++ nestedInItems items
end

/-- A secret that `[redacted]` cannot be a part of. -/
structure Guarded (literal : PyStr) : Prop where
  left : .scalar '[' ∉ literal
  right : .scalar ']' ∉ literal
  word : ¬ literal <:+: PyStr.ofString "redacted"

theorem Guarded.barrier {literal : PyStr} (h : Guarded literal) : Barrier literal redacted := by
  have hparts : redacted = .scalar '[' :: PyStr.ofString "redacted" ++ [.scalar ']'] := by decide
  rw [hparts]
  exact barrier_of_guards h.left h.right h.word

section Clean

variable {secrets : SecretLiterals}

theorem SecretLiterals.ne_nil (secrets : SecretLiterals) {literal : PyStr} (h : literal ∈ secrets.literals) :
    literal ≠ [] := by
  have hlong := secrets.long literal h
  rintro rfl
  simp at hlong

/-- The text has no secret. -/
def Clean (secrets : SecretLiterals) (text : PyStr) : Prop :=
  ∀ literal ∈ secrets.literals, ¬ literal <:+: text

theorem clean_redactText (hguarded : ∀ literal ∈ secrets.literals, Guarded literal) (text : PyStr) :
    Clean secrets (redactText secrets text) := by
  intro literal hliteral
  exact not_infix_replaceEach
    (fun l hl => ⟨secrets.ne_nil hl, (hguarded l hl).barrier⟩) text hliteral

theorem redactText_of_clean {text : PyStr} (h : Clean secrets text) : redactText secrets text = text :=
  replaceEach_eq_self (fun _ hl => secrets.ne_nil hl) h

theorem clean_redacted (hguarded : ∀ literal ∈ secrets.literals, Guarded literal) :
    Clean secrets redacted := by
  intro literal hliteral hin
  have hnil : ([] ++ redacted ++ [] : PyStr) = redacted := by simp
  rcases (hguarded literal hliteral).barrier [] [] (hnil.symm ▸ hin) with h | h
  · exact secrets.ne_nil hliteral (List.infix_nil.mp h)
  · exact secrets.ne_nil hliteral (List.infix_nil.mp h)

/-- The value has no secret in its texts, and nothing else than `[redacted]` under a secret key. -/
structure Scrubbed (secrets : SecretLiterals) (texts : List PyStr) (entries : List (PyStr × LogValue)) :
    Prop where
  clean : ∀ text ∈ texts, Clean secrets text
  keys : ∀ entry ∈ entries, isSecretKey entry.1 = true → entry.2 = .text redacted

theorem Scrubbed.nil (secrets : SecretLiterals) : Scrubbed secrets [] [] :=
  ⟨List.forall_mem_nil _, List.forall_mem_nil _⟩

theorem scrubbed_append {ts ts' : List PyStr} {es es' : List (PyStr × LogValue)} :
    Scrubbed secrets (ts ++ ts') (es ++ es') ↔ Scrubbed secrets ts es ∧ Scrubbed secrets ts' es' := by
  constructor
  · rintro ⟨hclean, hkeys⟩
    rw [List.forall_mem_append] at hclean hkeys
    exact ⟨⟨hclean.1, hkeys.1⟩, hclean.2, hkeys.2⟩
  · rintro ⟨⟨hclean, hkeys⟩, hclean', hkeys'⟩
    exact ⟨List.forall_mem_append.mpr ⟨hclean, hclean'⟩, List.forall_mem_append.mpr ⟨hkeys, hkeys'⟩⟩

theorem scrubbed_text {text : PyStr} (h : Clean secrets text) : Scrubbed secrets [text] [] :=
  ⟨List.forall_mem_singleton.mpr h, List.forall_mem_nil _⟩

theorem Scrubbed.cons {ts : List PyStr} {es : List (PyStr × LogValue)} (h : Scrubbed secrets ts es)
    {entry : PyStr × LogValue} (hentry : isSecretKey entry.1 = true → entry.2 = .text redacted) :
    Scrubbed secrets ts (entry :: es) :=
  ⟨h.clean, List.forall_mem_cons.mpr ⟨hentry, h.keys⟩⟩

mutual
theorem scrubbed_scrubValue (hguarded : ∀ literal ∈ secrets.literals, Guarded literal) :
    ∀ value, Scrubbed secrets (texts (scrubValue secrets value)) (nested (scrubValue secrets value))
  | .none => Scrubbed.nil secrets
  | .text s => scrubbed_text (clean_redactText hguarded s)
  | .mapping entries => scrubbed_scrubEntries hguarded entries
  | .list items => scrubbed_scrubItems hguarded items
  | .tuple items => scrubbed_scrubItems hguarded items
  | .other _ => Scrubbed.nil secrets
theorem scrubbed_scrubEntries (hguarded : ∀ literal ∈ secrets.literals, Guarded literal) :
    ∀ entries, Scrubbed secrets (textsOfEntries (scrubEntries secrets entries))
      (nestedInEntries (scrubEntries secrets entries))
  | [] => Scrubbed.nil secrets
  | (key, item) :: entries => by
    rw [scrubEntries, textsOfEntries, nestedInEntries]
    by_cases hkey : isSecretKey key = true
    · rw [if_pos hkey]
      refine (scrubbed_append.mpr ⟨?_, scrubbed_scrubEntries hguarded entries⟩).cons fun _ => rfl
      exact scrubbed_text (clean_redacted hguarded)
    · rw [if_neg hkey]
      exact (scrubbed_append.mpr ⟨scrubbed_scrubValue hguarded item,
        scrubbed_scrubEntries hguarded entries⟩).cons fun h => absurd h hkey
theorem scrubbed_scrubItems (hguarded : ∀ literal ∈ secrets.literals, Guarded literal) :
    ∀ items, Scrubbed secrets (textsOfItems (scrubItems secrets items))
      (nestedInItems (scrubItems secrets items))
  | [] => Scrubbed.nil secrets
  | item :: items =>
    scrubbed_append.mpr ⟨scrubbed_scrubValue hguarded item, scrubbed_scrubItems hguarded items⟩
end

mutual
/-- What has been scrubbed is not scrubbed again. -/
theorem scrubValue_of_scrubbed :
    ∀ value, Scrubbed secrets (texts value) (nested value) → scrubValue secrets value = value
  | .none, _ => rfl
  | .text _, h => congrArg LogValue.text (redactText_of_clean (List.forall_mem_singleton.mp h.clean))
  | .mapping entries, h => congrArg LogValue.mapping (scrubEntries_of_scrubbed entries h)
  | .list items, h => congrArg LogValue.list (scrubItems_of_scrubbed items h)
  | .tuple items, h => congrArg LogValue.tuple (scrubItems_of_scrubbed items h)
  | .other _, _ => rfl
theorem scrubEntries_of_scrubbed :
    ∀ entries, Scrubbed secrets (textsOfEntries entries) (nestedInEntries entries) →
      scrubEntries secrets entries = entries
  | [], _ => rfl
  | (key, item) :: entries, h => by
    rw [textsOfEntries, nestedInEntries] at h
    obtain ⟨hkey, hkeys⟩ := List.forall_mem_cons.mp h.keys
    obtain ⟨hitem, hentries⟩ := scrubbed_append.mp ⟨h.clean, hkeys⟩
    rw [scrubEntries, scrubEntries_of_scrubbed entries hentries]
    split_ifs with hsecret
    · rw [← hkey hsecret]
    · rw [scrubValue_of_scrubbed item hitem]
theorem scrubItems_of_scrubbed :
    ∀ items, Scrubbed secrets (textsOfItems items) (nestedInItems items) →
      scrubItems secrets items = items
  | [], _ => rfl
  | item :: items, h => by
    rw [textsOfItems, nestedInItems] at h
    obtain ⟨hitem, hitems⟩ := scrubbed_append.mp h
    rw [scrubItems, scrubValue_of_scrubbed item hitem, scrubItems_of_scrubbed items hitems]
end

/-! ### Lines -/

/-- What may stand in a line. -/
structure CleanEntry (secrets : SecretLiterals) (entry : PyStr × LogValue) : Prop where
  texts : Scrubbed secrets (texts entry.2) (nested entry.2)
  key : isSecretKey entry.1 = true → isGiven entry.2 = true → entry.2 = .text redacted

theorem cleanEntry_scrubEntry (hguarded : ∀ literal ∈ secrets.literals, Guarded literal)
    (entry : PyStr × LogValue) : CleanEntry secrets (scrubEntry secrets entry) := by
  unfold scrubEntry
  split_ifs with hkey hgiven
  · exact ⟨scrubbed_text (clean_redacted hguarded), fun _ _ => rfl⟩
  · refine ⟨?_, fun _ h => absurd h hgiven⟩
    obtain ⟨key, value⟩ := entry
    cases value with
    | none => exact Scrubbed.nil secrets
    | text s =>
      cases s with
      | nil =>
        exact scrubbed_text fun literal hliteral hin =>
          secrets.ne_nil hliteral (List.infix_nil.mp hin)
      | cons c s => exact absurd rfl hgiven
    | mapping _ | list _ | tuple _ | other _ => exact absurd rfl hgiven
  · exact ⟨scrubbed_scrubValue hguarded entry.2, fun h => absurd h hkey⟩

theorem scrubEntry_of_cleanEntry {entry : PyStr × LogValue} (h : CleanEntry secrets entry) :
    scrubEntry secrets entry = entry := by
  unfold scrubEntry
  split_ifs with hkey hgiven
  · rw [← h.key hkey hgiven]
  · rfl
  · rw [scrubValue_of_scrubbed entry.2 h.texts]

variable (repr : LogValue → PyStr) (eventDict : List (PyStr × LogValue))

theorem not_isSecretKey_eventKey : isSecretKey eventKey = false := by decide +kernel

/-- The message is a text without secrets. -/
theorem exists_message (hguarded : ∀ literal ∈ secrets.literals, Guarded literal) :
    ∃ message, Clean secrets message ∧ scrubSecrets secrets repr eventDict
      = keyedSet Prod.fst (eventDict.map (scrubEntry secrets)) (eventKey, .text message) :=
  ⟨_, clean_redactText hguarded _, rfl⟩

theorem cleanEntry_scrubSecrets (hguarded : ∀ literal ∈ secrets.literals, Guarded literal)
    {entry : PyStr × LogValue} (h : entry ∈ scrubSecrets secrets repr eventDict) :
    CleanEntry secrets entry := by
  obtain ⟨message, hclean, hline⟩ := exists_message repr eventDict hguarded
  rw [hline] at h
  rcases mem_keyedSet.mp h with rfl | ⟨hmem, -⟩
  · refine ⟨scrubbed_text hclean, fun hkey => ?_⟩
    rw [not_isSecretKey_eventKey] at hkey
    cases hkey
  · obtain ⟨entry, -, rfl⟩ := List.mem_map.mp hmem
    exact cleanEntry_scrubEntry hguarded entry

/-- **Redaction.**  Whatever is logged, no registered secret occurs in a text of the line, and under a key
    that looks like a secret there is nothing or `[redacted]`, however deep.  Scrubbing
    the line once more changes nothing. -/
theorem scrubSecrets_clean (hguarded : ∀ literal ∈ secrets.literals, Guarded literal) :
    (∀ entry ∈ scrubSecrets secrets repr eventDict, CleanEntry secrets entry)
      ∧ scrubSecrets secrets repr (scrubSecrets secrets repr eventDict)
        = scrubSecrets secrets repr eventDict := by
  have hclean : ∀ entry ∈ scrubSecrets secrets repr eventDict, CleanEntry secrets entry :=
    fun _ h => cleanEntry_scrubSecrets repr eventDict hguarded h
  refine ⟨hclean, ?_⟩
  obtain ⟨message, hmessage, hline⟩ := exists_message repr eventDict hguarded
  have hsame : (scrubSecrets secrets repr eventDict).map (scrubEntry secrets)
      = scrubSecrets secrets repr eventDict :=
    (List.map_congr_left fun entry h => scrubEntry_of_cleanEntry (hclean entry h)).trans (List.map_id _)
  have hfind : (scrubSecrets secrets repr eventDict).find? (·.1 = eventKey)
      = some (eventKey, .text message) := by
    rw [hline, find?_keyedSet, if_pos rfl]
  have hagain : scrubSecrets secrets repr (scrubSecrets secrets repr eventDict)
      = keyedSet Prod.fst (scrubSecrets secrets repr eventDict) (eventKey, .text message) := by
    rw [scrubSecrets, hsame, hfind]
    exact congrArg (fun text => keyedSet Prod.fst _ (eventKey, LogValue.text text))
      (redactText_of_clean hmessage)
  rw [hagain]
  refine keyedSet_of_mem (List.mem_of_find?_eq_some hfind) fun entry hentry hkey => ?_
  rw [hline] at hentry
  exact (mem_keyedSet.mp hentry).elim id fun h => absurd hkey h.2

end Clean

/-! ### A password in a message -/

def noSecrets : SecretLiterals := ⟨[], List.forall_mem_nil _⟩

def samplePassword : PyStr := .ofString "hunter22"

def sampleSecrets : SecretLiterals := registerSecretLiteral samplePassword noSecrets

def sampleLine : List (PyStr × LogValue) :=
  [(.ofString "event", .text (.ofString "as hunter22")), (.ofString "token", .text []),
    (.ofString "db", .mapping [(.ofString "Secret", .list []), (.ofString "user", .none)])]

example : scrubSecrets sampleSecrets (fun _ => []) sampleLine
    = [(.ofString "event", .text (.ofString "as [redacted]")), (.ofString "token", .text []),
      (.ofString "db", .mapping [(.ofString "Secret", .text redacted), (.ofString "user", .none)])] := by
  rfl

theorem guarded_sample : ∀ literal ∈ sampleSecrets.literals, Guarded literal := by
  intro literal hliteral
  rcases mem_registerSecretLiteral.mp hliteral with hnone | ⟨rfl, -⟩
  · cases hnone
  · exact ⟨by decide, by decide, by decide⟩

theorem scrubSecrets_clean_sample :
    CleanEntry sampleSecrets (.ofString "event", .text (.ofString "as [redacted]"))
      ∧ scrubSecrets sampleSecrets (fun _ => []) (scrubSecrets sampleSecrets (fun _ => []) sampleLine)
        = scrubSecrets sampleSecrets (fun _ => []) sampleLine := by
  have hclean := scrubSecrets_clean (fun _ => []) sampleLine guarded_sample
  exact ⟨hclean.1 _ (.head _), hclean.2⟩

end Agora.Observability
