import Agora.Ledger.Event
import Agora.Lib.Base64
import Agora.Lib.Keyset
import Mathlib

namespace Agora.Audit

open Ledger (ActorClass NonBlank)

/-!
# Reading the access log

Audited reads are listed page by page in the order of their times and ids, and a page is cut off
with a cursor that spells both of its last entry.  A cursor is read back as what it spells
(`accessCursorDecode_cursorText`), so following the cursors lists every read that is asked for once
(`listForResource_followed`).

Of the formats that `datetime.fromisoformat` reads only the one that cursors are written in matters:
what it makes of the others is `others`.
-/

/-! ### Cursors -/

def asciiError : PyException := .valueError "ordinal not in range(128)"

/-- `text.encode("ascii")`. -/
def encodeAscii (text : List Char) : Py Bytes :=
  if ∀ c ∈ text, c.toNat < 128 then .ok (text.map fun c => UInt8.ofNat c.toNat)
  else .error asciiError

/-- `b.decode("ascii")`. -/
def decodeAscii (b : Bytes) : Py (List Char) :=
  if ∀ x ∈ b, x.toNat < 128 then .ok (b.map fun x => Char.ofNat x.toNat) else .error asciiError

/-- `text.rsplit("|", 1)`, when it gives two parts. -/
def rsplitBar (text : List Char) : Option (List Char × List Char) :=
  if '|' ∈ text then
    some ((text.rdropWhile (· ≠ '|')).dropLast, text.rtakeWhile (· ≠ '|'))
  else none

/-- `_aware_utc(datetime.fromisoformat(text))`. -/
def awareUtc (others : List Char → Py Datetime) (text : List Char) : Py Datetime :=
  match Datetime.ofZulu text with
  | some t => if t.zulu = text then .ok t else others text
  | none => others text

def accessCursorEncode (recordedAt : Datetime) (entryId : UUID) : Py (List Char) := do
  let raw ← encodeAscii (recordedAt.zulu ++ '|' :: entryId.text.toList)
  pure (Base64.encode raw)

def accessCursorDecode (others : List Char → Py Datetime) (cursor : List Char) :
    Py (Datetime × UUID) := do
  let _ ← encodeAscii cursor
  match Base64.decodeLenient cursor with
  | none => .error (.valueError "Incorrect padding")
  | some raw =>
    let decoded ← decodeAscii raw
    match rsplitBar decoded with
    | none => .error (.valueError "not enough values to unpack (expected 2, got 1)")
    | some (timestamp, entryId) =>
      let value ← awareUtc others timestamp
      let id ← UUID.ofHexText entryId
      pure (value, id)

/-! ### The log -/

inductive AccessResult where
  | allowed
  | denied
  | failed
deriving DecidableEq

inductive AuditResourceKind where
  | artifact
  | knowledgeChunk
  | auditExport
  | agentDefinition
  | retrievalChunk
  | consensusResult
  | recommendation
  | session
deriving DecidableEq

/-- One audited read. -/
structure AccessLogEntry where
  id : UUID
  workspaceId : UUID
  sessionId : UUID
  principalClass : ActorClass
  principalId : UUID
  resourceKind : AuditResourceKind
  resourceId : UUID
  result : AccessResult
  scopeIds : List NonBlank
  traceId : NonBlank
  recordedAt : Datetime

/-- What an acceptance is read from. -/
structure RecommendationRow where
  id : UUID
  workspaceId : UUID
  sessionId : UUID
  createdAt : Datetime

/-- The tables. -/
structure AccessTables where
  entries : List AccessLogEntry
  recommendations : List RecommendationRow
  ids : (entries.map (·.id)).Nodup
  recommendationIds : (recommendations.map (·.id)).Nodup

/-- What the rows are selected by. -/
structure AccessFilter where
  workspaceId : UUID
  resourceKind : AuditResourceKind
  resourceId : UUID
  sessionId : Option UUID
  before : Option Datetime
  result : Option AccessResult

/-- The `where` clauses but the one of the cursor. -/
def AccessFilter.Selects (f : AccessFilter) (e : AccessLogEntry) : Prop :=
  e.workspaceId = f.workspaceId ∧ e.resourceKind = f.resourceKind ∧ e.resourceId = f.resourceId
    ∧ (f.sessionId.all (e.sessionId = ·)) ∧ (f.before.all (e.recordedAt < ·))
    ∧ (f.result.all (e.result = ·))

instance (f : AccessFilter) : DecidablePred f.Selects := fun _ => by
  unfold AccessFilter.Selects
  infer_instance

/-- `recorded_at > cursor_at OR (recorded_at = cursor_at AND id > cursor_id)`. -/
def IsAfter (cursor : Datetime × UUID) (e : AccessLogEntry) : Prop :=
  cursor.1 < e.recordedAt ∨ e.recordedAt = cursor.1 ∧ cursor.2 < e.id

instance (cursor : Datetime × UUID) : DecidablePred (IsAfter cursor) := fun _ => by
  unfold IsAfter
  infer_instance

/-- `ORDER BY recorded_at, id`. -/
def entryKey (e : AccessLogEntry) : Datetime ×ₗ UUID := toLex (e.recordedAt, e.id)

def listForResource (others : List Char → Py Datetime) (t : AccessTables) (f : AccessFilter)
    (limit : ℤ) (cursor : Option (List Char)) :
    Py (List AccessLogEntry × Option (List Char)) :=
  if limit ≤ 0 then .error (.valueError "limit must be positive")
  else do
    let bound ← cursor.elim (pure none) fun text => some <$> accessCursorDecode others text
    let selected := t.entries.filter fun e =>
      decide (f.Selects e) && bound.all fun b => decide (IsAfter b e)
    let rows := (ranked entryKey selected).take (limit.toNat + 1)
    let entries := rows.take limit.toNat
    match decide (limit.toNat < rows.length), entries.getLast? with
    | true, some last => do
      let next ← accessCursorEncode last.recordedAt last.id
      pure (entries, some next)
    | _, _ => pure (entries, none)

/-! ### The report -/

structure RecommendationAccessReport where
  workspaceId : UUID
  recommendationId : UUID
  recommendationKnown : Bool
  recommendationCreatedAt : Option Datetime
  sessionId : Option UUID
  entries : List AccessLogEntry
  completeTimeline : Bool
  whyIncomplete : Option String
  truncated : Bool
  nextCursor : Option (List Char)

def recommendationCreatedAt (t : AccessTables) (workspaceId recommendationId : UUID)
    (sessionId : Option UUID) : Option Datetime :=
  (t.recommendations.find? fun r =>
    r.workspaceId = workspaceId ∧ r.id = recommendationId ∧ sessionId.all (r.sessionId = ·)).map
      (·.createdAt)

/-- What a report selects by. -/
def accessFilter (t : AccessTables) (workspaceId recommendationId : UUID)
    (sessionId : Option UUID) : AccessFilter where
  workspaceId
  resourceKind := .recommendation
  resourceId := recommendationId
  sessionId := none
  before := recommendationCreatedAt t workspaceId recommendationId sessionId
  result := some .allowed

def recommendationAccess (others : List Char → Py Datetime) (t : AccessTables)
    (workspaceId recommendationId : UUID) (sessionId : Option UUID) (limit : ℤ)
    (cursor : Option (List Char)) : Py RecommendationAccessReport := do
  let createdAt := recommendationCreatedAt t workspaceId recommendationId sessionId
  let (entries, nextCursor) ←
    listForResource others t (accessFilter t workspaceId recommendationId sessionId) limit cursor
  let known := createdAt.isSome
  let truncated := nextCursor.isSome
  pure
    { workspaceId
      recommendationId
      recommendationKnown := known
      recommendationCreatedAt := createdAt
      sessionId := if known then sessionId else none
      entries
      completeTimeline := known && !truncated && cursor.isNone
      whyIncomplete :=
        if known then none else some "recommendation is not recorded for this session"
      truncated
      nextCursor }

/-! ### Cursors are read back -/

theorem decodeAscii_encodeAscii {text : List Char} (h : ∀ c ∈ text, c.toNat < 128) :
    encodeAscii text = .ok (text.map fun c => UInt8.ofNat c.toNat)
      ∧ decodeAscii (text.map fun c => UInt8.ofNat c.toNat) = .ok text := by
  constructor
  · rw [encodeAscii, if_pos h]
  · have hsmall : ∀ c ∈ text, (UInt8.ofNat c.toNat).toNat = c.toNat := by
      intro c hc
      have hlt := h c hc
      rw [UInt8.toNat_ofNat']
      exact Nat.mod_eq_of_lt (by omega)
    have hall : ∀ x ∈ text.map fun c => UInt8.ofNat c.toNat, x.toNat < 128 := by
      intro x hx
      obtain ⟨c, hc, rfl⟩ := List.mem_map.mp hx
      rw [hsmall c hc]
      exact h c hc
    rw [decodeAscii, if_pos hall, List.map_map]
    congr 1
    conv_rhs => rw [← List.map_id text]
    apply List.map_congr_left
    intro c hc
    show Char.ofNat (UInt8.ofNat c.toNat).toNat = c
    rw [hsmall c hc, Char.ofNat_toNat]

theorem rsplitBar_append {before behind : List Char} (h : '|' ∉ behind) :
    rsplitBar (before ++ '|' :: behind) = some (before, behind) := by
  have hbehind : ∀ c ∈ behind.reverse, decide (c ≠ '|') = true := by
    intro c hc
    apply decide_eq_true
    rintro rfl
    exact h (List.mem_reverse.mp hc)
  have hreverse : (before ++ '|' :: behind).reverse = behind.reverse ++ '|' :: before.reverse := by
    simp
  unfold rsplitBar List.rdropWhile List.rtakeWhile
  rw [if_pos (by simp), hreverse, List.dropWhile_append_of_pos hbehind,
    List.takeWhile_append_of_pos hbehind]
  simp

theorem toNat_of_isDigit {c : Char} (h : c.isDigit = true) : c.toNat < 128 := by
  simp only [Char.isDigit, ge_iff_le, Bool.and_eq_true, decide_eq_true_eq] at h
  have hle : c.toNat ≤ ('9' : Char).toNat := h.2
  exact hle.trans_lt (by decide)

theorem toNat_zulu (t : Datetime) : ∀ c ∈ t.zulu, c.toNat < 128 := by
  have hnumber {width n : ℕ} : ∀ c ∈ zeroPadded width n, c.toNat < 128 := fun c hc =>
    toNat_of_isDigit (isDigit_zeroPadded hc)
  have hfraction : ∀ c ∈ (if t.microsecond = 0 then [] else '.' :: zeroPadded 6 t.microsecond),
      c.toNat < 128 := by
    split
    · simp
    · simpa using hnumber
  unfold Datetime.zulu Date.isoformat Datetime.clock
  simp only [List.forall_mem_append, List.forall_mem_cons]
  exact ⟨⟨⟨⟨⟨hnumber, by decide, hnumber⟩, by decide, hnumber⟩, by decide,
    ⟨hnumber, by decide, hnumber⟩, by decide, hnumber⟩, hfraction⟩, by decide, List.forall_mem_nil _⟩

theorem toNat_text (id : UUID) : (∀ c ∈ id.text.toList, c.toNat < 128) ∧ '|' ∉ id.text.toList := by
  obtain ⟨-, -, hhex⟩ := id.text_eq_dashed
  have hchars : ∀ c ∈ id.text.toList, c.toNat < 128 ∧ c ≠ '|' := by
    intro c hc
    by_cases hdash : c = '-'
    · rw [hdash]
      decide
    · have hdigit : c ∈ id.hex := List.mem_filter.mpr ⟨hc, decide_eq_true hdash⟩
      exact forall_digit (p := fun c => c.toNat < 128 ∧ c ≠ '|') (by decide) (hhex c hdigit)
  exact ⟨fun c hc => (hchars c hc).1, fun hmem => (hchars '|' hmem).2 rfl⟩

theorem toNat_encode (b : Bytes) : ∀ c ∈ Base64.encode b, c.toNat < 128 := by
  have hdigit (n : ℕ) : (Base64.digit n).toNat < 128 := by
    have hall : ∀ m < 64, (Base64.alphabet.getD m 'A').toNat < 128 := by decide +kernel
    exact hall _ (Nat.mod_lt _ (by decide))
  fun_induction Base64.encode b with
  | case1 => simp
  | case2 x => simp [hdigit]
  | case3 x y => simp [hdigit]
  | case4 x y z b ih =>
    simp only [List.forall_mem_cons]
    exact ⟨hdigit _, hdigit _, hdigit _, hdigit _, ih⟩

variable {others : List Char → Py Datetime}

theorem awareUtc_zulu (t : Datetime) : awareUtc others t.zulu = .ok t := by
  unfold awareUtc
  rw [Datetime.ofZulu_zulu]
  exact if_pos rfl

/-- The text of a cursor. -/
def cursorText (k : Datetime ×ₗ UUID) : List Char :=
  Base64.encode <| ((ofLex k).1.zulu ++ '|' :: (ofLex k).2.text.toList).map
    fun c => UInt8.ofNat c.toNat

theorem encodeAscii_cursor (k : Datetime ×ₗ UUID) :
    ∀ c ∈ (ofLex k).1.zulu ++ '|' :: (ofLex k).2.text.toList, c.toNat < 128 := by
  simp only [List.forall_mem_append, List.forall_mem_cons]
  exact ⟨toNat_zulu _, by decide, (toNat_text _).1⟩

theorem accessCursorEncode_eq (k : Datetime ×ₗ UUID) :
    accessCursorEncode (ofLex k).1 (ofLex k).2 = .ok (cursorText k) := by
  rw [accessCursorEncode, (decodeAscii_encodeAscii (encodeAscii_cursor k)).1]
  rfl

/-- **Cursors.**  A cursor is read as the time and the id that it was made of. -/
theorem accessCursorDecode_cursorText (others : List Char → Py Datetime) (k : Datetime ×ₗ UUID) :
    accessCursorDecode others (cursorText k) = .ok (ofLex k) := by
  have hbar := (toNat_text (ofLex k).2).2
  have hdecode := (decodeAscii_encodeAscii (encodeAscii_cursor k)).2
  unfold accessCursorDecode cursorText
  rw [(decodeAscii_encodeAscii (toNat_encode _)).1, Except.ok_bind, Base64.decodeLenient_encode]
  simp only [hdecode, Except.ok_bind, rsplitBar_append hbar, awareUtc_zulu, UUID.ofHexText_text]
  rfl

/-! ### Pages -/

section Pages

variable {t : AccessTables} {f : AccessFilter} {limit : ℤ}

theorem isAfter_iff {k : Datetime ×ₗ UUID} {e : AccessLogEntry} :
    IsAfter (ofLex k) e ↔ k < entryKey e := by
  have hlex : k < entryKey e ↔ (ofLex k).1 < e.recordedAt
      ∨ (ofLex k).1 = e.recordedAt ∧ (ofLex k).2 < e.id := Prod.Lex.lt_iff
  rw [hlex, IsAfter, eq_comm]

/-- The rows that are asked for. -/
def AccessTables.selected (t : AccessTables) (f : AccessFilter) : List AccessLogEntry :=
  t.entries.filter fun e => decide (f.Selects e)

/-- Ids tell the rows of the log apart, and so do their keys. -/
theorem injOn_entryKey : Set.InjOn entryKey {e | e ∈ t.selected f} := by
  intro a ha b hb h
  have hid : a.id = b.id := (Prod.ext_iff.mp (toLex.injective h)).2
  exact List.inj_on_of_nodup_map t.ids (List.mem_of_mem_filter ha) (List.mem_of_mem_filter hb) hid

theorem nodup_selected : (t.selected f).Nodup := (List.Nodup.of_map _ t.ids).filter _

/-- What is ranked for a page is what comes after its cursor. -/
theorem ranked_selected (k : Option (Datetime ×ₗ UUID)) :
    ranked entryKey (t.entries.filter fun e =>
      decide (f.Selects e) && (k.map ofLex).all fun b => decide (IsAfter b e))
      = afterKey entryKey (t.selected f) k := by
  have hsplit : (t.entries.filter fun e =>
        decide (f.Selects e) && (k.map ofLex).all fun b => decide (IsAfter b e))
      = (t.selected f).filter fun e => (k.map ofLex).all fun b => decide (IsAfter b e) := by
    unfold AccessTables.selected
    rw [List.filter_filter]
    apply List.filter_congr
    intro e _
    exact Bool.and_comm _ _
  rw [hsplit]
  apply ranked_filter_eq_afterKey injOn_entryKey
  intro e _
  cases k with
  | none => simp
  | some b =>
    rw [Option.map_some, Option.all_some, decide_eq_true_eq, isAfter_iff]
    simp only [Option.mem_def, Option.some.injEq, forall_eq']

/-- A page is served as `afterKey` says. -/
theorem servesPages_listForResource (hlimit : 1 ≤ limit) :
    ServesPages (listForResource others t f limit) (·.1) (·.2) cursorText entryKey (t.selected f)
      limit.toNat where
  serves k := by
    have hbound : (k.map cursorText).elim (pure none)
        (fun text => some <$> accessCursorDecode others text) = .ok (k.map ofLex) := by
      cases k with
      | none => rfl
      | some k =>
        rw [Option.map_some, Option.elim_some, accessCursorDecode_cursorText, Option.map_some]
        rfl
    unfold listForResource
    rw [if_neg (by omega), hbound, Except.ok_bind]
    simp only [ranked_selected, List.take_take, List.length_take]
    rw [min_eq_left (Nat.le_succ limit.toNat)]
    by_cases hmore : limit.toNat < (afterKey entryKey (t.selected f) k).length
    · have hrows : limit.toNat < min (limit.toNat + 1)
          (afterKey entryKey (t.selected f) k).length := by
        omega
      rw [if_pos hmore, decide_eq_true hrows]
      cases hlast : ((afterKey entryKey (t.selected f) k).take limit.toNat).getLast? with
      | none => exact ⟨_, rfl, rfl, rfl⟩
      | some last =>
        have hcursor : accessCursorEncode last.recordedAt last.id
            = .ok (cursorText (entryKey last)) := accessCursorEncode_eq (entryKey last)
        simp only [hcursor]
        exact ⟨_, rfl, rfl, rfl⟩
    · have hrows : ¬ limit.toNat < min (limit.toNat + 1)
          (afterKey entryKey (t.selected f) k).length := by
        omega
      rw [if_neg hmore, decide_eq_false hrows]
      exact ⟨_, rfl, rfl, rfl⟩

/-- What a listing holds: the entries that are asked for, each once, in the order of their times and
    ids. -/
structure Lists (t : AccessTables) (Asked : AccessLogEntry → Prop)
    (entries : List AccessLogEntry) : Prop where
  mem : ∀ e, e ∈ entries ↔ e ∈ t.entries ∧ Asked e
  ordered : entries.Pairwise fun a b =>
    a.recordedAt < b.recordedAt ∨ a.recordedAt = b.recordedAt ∧ a.id < b.id

theorem lists_ranked : Lists t f.Selects (ranked entryKey (t.selected f)) where
  mem e := by
    rw [mem_ranked]
    unfold AccessTables.selected
    rw [List.mem_filter, decide_eq_true_eq]
  ordered := by
    apply (pairwise_lt_ranked injOn_entryKey nodup_selected).imp
    intro a b hab
    exact Prod.Lex.lt_iff.mp hab

/-- **Listing.**  Following the cursors of any listing gives all that is selected. -/
theorem listForResource_followed (others : List Char → Py Datetime) (t : AccessTables)
    (f : AccessFilter) (hlimit : 1 ≤ limit) :
    ∃ pages, Followed (listForResource others t f limit) (·.2) none pages
      ∧ pages.flatMap (·.1) = ranked entryKey (t.selected f)
      ∧ pages.length ≤ (t.selected f).length + 1 :=
  (servesPages_listForResource hlimit).exists_followed injOn_entryKey nodup_selected (by omega)

end Pages

/-! ### Reports -/

section Reports

variable {t : AccessTables} {w r : UUID} {session : Option UUID} {limit : ℤ}

/-- An allowed read of the recommendation, before it was accepted. -/
structure AllowedRead (t : AccessTables) (w r : UUID) (session : Option UUID)
    (e : AccessLogEntry) : Prop where
  workspace : e.workspaceId = w
  kind : e.resourceKind = .recommendation
  resource : e.resourceId = r
  allowed : e.result = .allowed
  before : ∀ row ∈ t.recommendations, row.workspaceId = w → row.id = r →
    (∀ s ∈ session, row.sessionId = s) → e.recordedAt < row.createdAt

/-- The row whose time is taken is the only one with its id. -/
theorem recommendationCreatedAt_eq_some {at' : Datetime} :
    recommendationCreatedAt t w r session = some at' ↔ ∃ row ∈ t.recommendations,
      row.workspaceId = w ∧ row.id = r ∧ (∀ s ∈ session, row.sessionId = s)
        ∧ row.createdAt = at' := by
  have hsession : ∀ row : RecommendationRow, session.all (row.sessionId = ·) = true
      ↔ ∀ s ∈ session, row.sessionId = s := by
    intro row
    cases session with
    | none => simp
    | some s => simp
  unfold recommendationCreatedAt
  rw [Option.map_eq_some_iff]
  constructor
  · rintro ⟨row, hfind, hat⟩
    have hrow := List.find?_some hfind
    rw [decide_eq_true_eq] at hrow
    exact ⟨row, List.mem_of_find?_eq_some hfind, hrow.1, hrow.2.1, (hsession row).mp hrow.2.2, hat⟩
  · rintro ⟨row, hmem, hw, hr, hs, hat⟩
    have hsome : (t.recommendations.find? fun r' => decide (r'.workspaceId = w ∧ r'.id = r
        ∧ session.all (r'.sessionId = ·) = true)).isSome := by
      apply List.find?_isSome.mpr
      exact ⟨row, hmem, decide_eq_true ⟨hw, hr, (hsession row).mpr hs⟩⟩
    obtain ⟨other, hfind⟩ := Option.isSome_iff_exists.mp hsome
    have hother := List.find?_some hfind
    rw [decide_eq_true_eq] at hother
    have hsame : other = row := by
      apply List.inj_on_of_nodup_map t.recommendationIds (List.mem_of_find?_eq_some hfind) hmem
      rw [hother.2.1, hr]
    rw [hsame] at hfind
    exact ⟨row, hfind, hat⟩

/-- What a report selects is what the question asks for. -/
theorem accessFilter_selects {e : AccessLogEntry} :
    (accessFilter t w r session).Selects e ↔ AllowedRead t w r session e := by
  have hbefore : (recommendationCreatedAt t w r session).all (e.recordedAt < ·) = true
      ↔ ∀ row ∈ t.recommendations, row.workspaceId = w → row.id = r →
        (∀ s ∈ session, row.sessionId = s) → e.recordedAt < row.createdAt := by
    rw [Option.all_eq_true]
    constructor
    · intro h row hmem hw hr hs
      have hat := recommendationCreatedAt_eq_some.mpr ⟨row, hmem, hw, hr, hs, rfl⟩
      exact of_decide_eq_true (h _ hat)
    · intro h at' hat
      obtain ⟨row, hmem, hw, hr, hs, rfl⟩ := recommendationCreatedAt_eq_some.mp hat
      exact decide_eq_true (h row hmem hw hr hs)
  unfold AccessFilter.Selects accessFilter
  constructor
  · rintro ⟨hw, hkind, hr, -, hat, hallowed⟩
    exact ⟨hw, hkind, hr, of_decide_eq_true hallowed, hbefore.mp hat⟩
  · rintro ⟨hw, hkind, hr, hallowed, hat⟩
    exact ⟨hw, hkind, hr, rfl, hbefore.mpr hat, decide_eq_true hallowed⟩

theorem lists_allowedRead :
    Lists t (AllowedRead t w r session)
      (ranked entryKey (t.selected (accessFilter t w r session))) where
  mem e := by
    rw [lists_ranked.mem, accessFilter_selects]
  ordered := lists_ranked.ordered

/-- What a report takes over of its page. -/
theorem recommendationAccess_eq_ok {cursor : Option (List Char)}
    {report : RecommendationAccessReport} :
    recommendationAccess others t w r session limit cursor = .ok report ↔
      ∃ page, listForResource others t (accessFilter t w r session) limit cursor = .ok page
        ∧ report =
          { workspaceId := w
            recommendationId := r
            recommendationKnown := (recommendationCreatedAt t w r session).isSome
            recommendationCreatedAt := recommendationCreatedAt t w r session
            sessionId := if (recommendationCreatedAt t w r session).isSome then session else none
            entries := page.1
            completeTimeline := (recommendationCreatedAt t w r session).isSome
              && !page.2.isSome && cursor.isNone
            whyIncomplete := if (recommendationCreatedAt t w r session).isSome then none
              else some "recommendation is not recorded for this session"
            truncated := page.2.isSome
            nextCursor := page.2 } := by
  unfold recommendationAccess
  rw [Except.bind_eq_ok]
  constructor
  · rintro ⟨page, hpage, hreport⟩
    exact ⟨page, hpage, (Except.ok.inj hreport).symm⟩
  · rintro ⟨page, hpage, rfl⟩
    exact ⟨page, hpage, rfl⟩

/-- The pages of reports are the pages of the listing. -/
theorem Followed.reports {cursor : Option (List Char)}
    {pages : List (List AccessLogEntry × Option (List Char))}
    (h : Followed (listForResource others t (accessFilter t w r session) limit) (·.2) cursor
      pages) :
    ∃ reports, Followed (recommendationAccess others t w r session limit) (·.nextCursor) cursor
        reports ∧ reports.map (·.entries) = pages.map (·.1) := by
  induction h with
  | last hpage hnone =>
    have hreport := recommendationAccess_eq_ok.mpr ⟨_, hpage, rfl⟩
    exact ⟨_, .last hreport hnone, rfl⟩
  | more hpage hsome _ ih =>
    obtain ⟨reports, hreports, hmap⟩ := ih
    have hreport := recommendationAccess_eq_ok.mpr ⟨_, hpage, rfl⟩
    refine ⟨_, .more hreport hsome hreports, ?_⟩
    rw [List.map_cons, List.map_cons, hmap]

/-- A timeline is complete only on the first page, when there is no other. -/
theorem completeTimeline_iff (hlimit : 1 ≤ limit) {cursor : Option (List Char)}
    {report : RecommendationAccessReport}
    (h : recommendationAccess others t w r session limit cursor = .ok report)
    (hcomplete : report.completeTimeline = true) : cursor = none
      ∧ report.recommendationKnown = true
      ∧ report.entries = ranked entryKey (t.selected (accessFilter t w r session)) := by
  obtain ⟨page, hpage, rfl⟩ := recommendationAccess_eq_ok.mp h
  simp only [Bool.and_eq_true, Bool.not_eq_true', Option.isSome_eq_false_iff,
    Option.isNone_iff_eq_none] at hcomplete
  obtain ⟨⟨hknown, hnext⟩, rfl⟩ := hcomplete
  have hserves : ServesPages
      (listForResource others t (accessFilter t w r session) limit) _ _ _ _ _ _ :=
    servesPages_listForResource hlimit
  have hlast := hserves.entries_of_last (k := none) (by omega) hpage hnext
  rw [afterKey_none] at hlast
  exact ⟨rfl, hknown, hlast⟩

/-- **Paging of the access log.**  Cursors are read back; following them lists what is asked for,
    once each and in order, in finitely many pages, of any listing and of the reads of a
    recommendation; and a timeline is called complete only on a page that has all of it. -/
theorem recommendationAccess_exact (others : List Char → Py Datetime) (t : AccessTables)
    (w r : UUID) (session : Option UUID) (limit : ℤ) (hlimit : 1 ≤ limit) :
    (∀ recordedAt entryId, (accessCursorEncode recordedAt entryId >>= accessCursorDecode others)
        = .ok (recordedAt, entryId))
      ∧ (∀ f, ∃ pages, Followed (listForResource others t f limit) (·.2) none pages
        ∧ Lists t f.Selects (pages.flatMap (·.1)))
      ∧ (∃ reports,
        Followed (recommendationAccess others t w r session limit) (·.nextCursor) none reports
          ∧ Lists t (AllowedRead t w r session) (reports.flatMap (·.entries)))
      ∧ ∀ cursor report, recommendationAccess others t w r session limit cursor = .ok report →
        report.completeTimeline = true →
        cursor = none ∧ Lists t (AllowedRead t w r session) report.entries := by
  refine ⟨?_, ?_, ?_, ?_⟩
  · intro recordedAt entryId
    have hencode : accessCursorEncode recordedAt entryId
        = .ok (cursorText (toLex (recordedAt, entryId))) :=
      accessCursorEncode_eq (toLex (recordedAt, entryId))
    rw [hencode, Except.ok_bind]
    exact accessCursorDecode_cursorText others _
  · intro f
    obtain ⟨pages, hpages, hflat, -⟩ := listForResource_followed others t f hlimit
    refine ⟨pages, hpages, ?_⟩
    rw [hflat]
    exact lists_ranked
  · obtain ⟨pages, hpages, hflat, -⟩ := listForResource_followed others t
      (accessFilter t w r session) hlimit
    obtain ⟨reports, hreports, hmap⟩ := Followed.reports hpages
    refine ⟨reports, hreports, ?_⟩
    rw [List.flatMap_def, hmap, ← List.flatMap_def, hflat]
    exact lists_allowedRead
  · intro cursor report hreport hcomplete
    obtain ⟨hcursor, -, hentries⟩ := completeTimeline_iff hlimit hreport hcomplete
    rw [hentries]
    exact ⟨hcursor, lists_allowedRead⟩

end Reports

/-! ### Two reads at one time -/

def smallId (last : Fin 10) : UUID := .ofInt last

def sampleTime (second : Fin 60) : Datetime :=
  ⟨⟨2026, 9, 6, valid2026, validSeptember, validSixth⟩, 12, 0, second, 0, by
    have h := second.isLt
    omega⟩

/-- An allowed read of the recommendation. -/
def sampleRead (last : Fin 10) : AccessLogEntry where
  id := smallId last
  workspaceId := smallId 0
  sessionId := smallId 0
  principalClass := .human
  principalId := smallId 1
  resourceKind := .recommendation
  resourceId := smallId 2
  result := .allowed
  scopeIds := []
  traceId := ⟨"trace", by decide⟩
  recordedAt := sampleTime 0

def sampleTables : AccessTables where
  entries := [sampleRead 4, sampleRead 3]
  recommendations := [⟨smallId 2, smallId 0, smallId 0, sampleTime 1⟩]
  ids := by decide
  recommendationIds := by decide

/-- Page by page with one read on each. -/
theorem recommendationAccess_exact_sample : ∃ reports,
    Followed (recommendationAccess (fun _ => .error asciiError) sampleTables (smallId 0)
      (smallId 2) none 1) (·.nextCursor) none reports
      ∧ Lists sampleTables (AllowedRead sampleTables (smallId 0) (smallId 2) none)
        (reports.flatMap (·.entries)) :=
  (recommendationAccess_exact _ sampleTables (smallId 0) (smallId 2) none 1 (by decide)).2.2.1

end Agora.Audit
