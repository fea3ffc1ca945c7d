import Agora.Lib.Framing
import Agora.Lib.JsonAscii
import Agora.Realtime.Stream

namespace Agora.Realtime

open Ledger (LedgerEvent)

/-!
# The event stream between server and browser

The gateway writes an event as a frame of three lines and a keep-alive as a comment, and every frame
ends in a blank line.  The client of the frontend collects the text of the chunks, cuts it at blank
lines and parses the `data:` lines of each piece.

The data of a frame is JSON in ASCII and has no line feed.  The type of the event is written as it
is: a line feed in it starts a line of its own.  `streamSessionEvents_exact` says which types come
through.
-/

/-! ### The server -/

/-- `model_dump(mode="json")`. -/
def EventEnvelope.json (event : EventEnvelope) : Json :=
  .obj
    [(PyStr.ofString "event_id", .text event.eventId),
     (PyStr.ofString "ledger_seq", .int event.ledgerSeq),
     (PyStr.ofString "type", .text event.type),
     (PyStr.ofString "ts", .text (String.ofList event.ts.zulu)),
     (PyStr.ofString "session_id", .text event.sessionId),
     (PyStr.ofString "actor_id", .text event.actorId),
     (PyStr.ofString "actor_class", .text event.actorClass),
     (PyStr.ofString "round", event.round.elim .null fun n => .int n),
     (PyStr.ofString "payload", .obj event.payload),
     (PyStr.ofString "schema_version", .int event.schemaVersion),
     (PyStr.ofString "code_version", .text event.codeVersion)]

/-- The lines of an event before its data. -/
def EventEnvelope.head (event : EventEnvelope) : List Char :=
  ['i', 'd', ':', ' '] ++ Json.intText event.ledgerSeq
    ++ ['\n', 'e', 'v', 'e', 'n', 't', ':', ' '] ++ event.type.toList ++ ['\n']

/-- The last line of an event. -/
def EventEnvelope.dataLine (event : EventEnvelope) : List Char :=
  ['d', 'a', 't', 'a', ':', ' '] ++ event.json.dumps

/-- `_sse`, before it is encoded. -/
def sse (event : EventEnvelope) : Py (List Char) :=
  if event.json.encodable then .ok (event.head ++ (event.dataLine ++ ['\n', '\n']))
  else .error (.valueError "Exceeds the limit (4300 digits) for integer string conversion")

def Frame.text : Frame → Py (List Char)
  | .event envelope => sse envelope
  | .keepAlive => .ok ": keep-alive\n\n".toList

/-- The text of a stream. -/
def streamText : List Frame → Py (List Char)
  | [] => .ok []
  | frame :: frames => do
    let text ← frame.text
    let rest ← streamText frames
    .ok (text ++ rest)

/-- The bytes of a stream. -/
def written (frames : List Frame) : Py Bytes := utf8 <$> streamText frames

/-! ### The client -/

/-- The characters `trimStart` removes. -/
def isTrimmed (c : Char) : Bool :=
  let n := c.toNat
  (0x09 ≤ n && n ≤ 0x0D) || n == 0x20 || n == 0xA0 || n == 0x1680 || (0x2000 ≤ n && n ≤ 0x200A)
    || n == 0x2028 || n == 0x2029 || n == 0x202F || n == 0x205F || n == 0x3000 || n == 0xFEFF

/-- The `data:` lines of a frame, each without the field's name. -/
def dataLines (frame : List Char) : List (List Char) :=
  ((frame.splitOn '\n').filter fun line => "data:".toList.isPrefixOf line).map fun line =>
    (line.drop 5).dropWhile isTrimmed

/-- `data` of a frame. -/
def frameData (frame : List Char) : List Char := ['\n'].intercalate (dataLines frame)

/-- `TextDecoderStream`: however the bytes of a text are divided, its strings make the text.  It
    drops a byte order mark. -/
structure TextDecoder where
  decode : List Bytes → List (List Char)
  decode_utf8 : ∀ chunks text, text.head? ≠ some '\uFEFF' → chunks.flatten = utf8 text →
    (decode chunks).flatten = text

/-- `JSON.parse`, `none` where it throws; `ofJson` is what JavaScript makes of a value and its
    numbers.  A JSON text may have line feeds before it, and an object on a line of its own has
    nothing else. -/
structure JsonParse (α : Type) where
  parse : List Char → Option α
  ofJson : Json → α
  parse_dumps : ∀ (j : Json) (k : ℕ), j.encodable = true → j.uniqueKeys = true →
    parse (List.replicate k '\n' ++ j.dumps) = some (ofJson j)
  parse_line : ∀ (entries : List (PyStr × Json)) (x : List Char),
    (Json.obj entries).encodable = true →
    (parse (x ++ '\n' :: (Json.obj entries).dumps)).isSome = true →
    ∀ c ∈ x, Json.isJsonSpace c = true

/-- What the client has yielded, and whether `JSON.parse` has thrown. -/
structure Received (α : Type) where
  yielded : List α
  failed : Bool

section Client

variable {α : Type} (parse : List Char → Option α)

/-- `yield JSON.parse(data)`: after an exception nothing is yielded. -/
def Received.yieldData (r : Received α) (data : List Char) : Received α :=
  if r.failed then r
  else
    match parse data with
    | none => { r with failed := true }
    | some value => { r with yielded := r.yielded ++ [value] }

/-- A frame: `if (data) yield JSON.parse(data)`. -/
def Received.frame (r : Received α) (frame : List Char) : Received α :=
  if (frameData frame).isEmpty then r else r.yieldData parse (frameData frame)

/-- `streamSessionEvents`, of the strings of the reader. -/
def streamSessionEvents (values : List (List Char)) : Received α :=
  (values.foldl (feed '\n' (Received.frame parse)) (⟨[], false⟩, [])).1

end Client

/-- A type that adds no data: the pieces that are cut off the head have none, and what is left of
    the head has empty data lines only. -/
def Harmless (event : EventEnvelope) : Prop :=
  (∀ frame ∈ (frames '\n' event.head).1, frameData frame = [])
    ∧ ∀ line ∈ dataLines (frames '\n' event.head).2, line = []

/-! ### Lines -/

theorem dataLines_append (a b : List Char) :
    dataLines (a ++ '\n' :: b) = dataLines a ++ dataLines b := by
  unfold dataLines
  rw [List.splitOn_append_cons_self, List.filter_append, List.map_append]

/-- The text of an event is a JSON object. -/
theorem EventEnvelope.dumps_eq_cons (event : EventEnvelope) :
    ∃ cs, event.json.dumps = '\x7b' :: cs := ⟨_, by rw [json, Json.dumps]⟩

theorem EventEnvelope.lineFeed_not_mem (event : EventEnvelope) : '\n' ∉ event.dataLine := by
  intro hmem
  rcases List.mem_append.mp hmem with hname | hdata
  · exact absurd hname (by decide)
  · have hprintable := (Json.printable_dumps _ _ hdata).1
    exact absurd hprintable (by decide)

theorem EventEnvelope.dataLines_dataLine (event : EventEnvelope) :
    dataLines event.dataLine = [event.json.dumps] := by
  obtain ⟨cs, hcs⟩ := event.dumps_eq_cons
  unfold dataLines
  rw [List.splitOn_eq_singleton event.lineFeed_not_mem, dataLine, hcs]
  rfl

/-- What is left of the head is nothing or ends in a line feed. -/
theorem EventEnvelope.rest_head (event : EventEnvelope) :
    (frames '\n' event.head).2 = [] ∨ ∃ lines, (frames '\n' event.head).2 = lines ++ ['\n'] := by
  have hsuffix : (frames '\n' event.head).2 <:+ event.head := frames_suffix event.head
  unfold head at hsuffix ⊢
  rcases List.suffix_concat_iff.mp hsuffix with hnil | ⟨lines, hlines, -⟩
  · exact .inl hnil
  · exact .inr ⟨lines, hlines⟩

/-- The data of the last piece: data lines of the head, and the JSON text. -/
theorem EventEnvelope.dataLines_last (event : EventEnvelope) :
    dataLines ((frames '\n' event.head).2 ++ event.dataLine)
      = dataLines (frames '\n' event.head).2 ++ [event.json.dumps] := by
  rcases event.rest_head with hnil | ⟨lines, hlines⟩
  · rw [hnil, List.nil_append, dataLines_dataLine]
    rfl
  · rw [hlines, List.append_assoc, List.singleton_append, dataLines_append, dataLines_append,
      dataLines_dataLine, show dataLines [] = [] from rfl, List.append_nil]

/-! ### What the client parses -/

/-- The texts that an event makes the client parse. -/
def EventEnvelope.handed (event : EventEnvelope) : List (List Char) :=
  ((frames '\n' event.head).1.map frameData).filter (fun data => !data.isEmpty)
    ++ [frameData ((frames '\n' event.head).2 ++ event.dataLine)]

section Client

variable {α : Type} {parse : List Char → Option α}

theorem foldl_frame (pieces : List (List Char)) (r : Received α) :
    pieces.foldl (Received.frame parse) r
      = ((pieces.map frameData).filter fun data => !data.isEmpty).foldl (Received.yieldData parse)
        r := by
  induction pieces generalizing r with
  | nil => rfl
  | cons piece pieces ih =>
    rw [List.foldl_cons, ih, List.map_cons, Received.frame]
    by_cases hempty : (frameData piece).isEmpty = true
    · rw [if_pos hempty, List.filter_cons_of_neg (by simp [hempty])]
    · rw [if_neg hempty, List.filter_cons_of_pos (by simp [hempty]), List.foldl_cons]

/-- The data of the last piece is not empty. -/
theorem EventEnvelope.frameData_last (event : EventEnvelope) :
    (frameData ((frames '\n' event.head).2 ++ event.dataLine)).isEmpty = false := by
  obtain ⟨cs, hcs⟩ := event.dumps_eq_cons
  rw [frameData, event.dataLines_last, hcs]
  cases dataLines (frames '\n' event.head).2 with
  | nil => rfl
  | cons line lines => simp [List.intercalate_cons_of_ne_nil]

/-- An event leaves nothing in the buffer. -/
theorem drain_event (event : EventEnvelope) (r : Received α) :
    drain '\n' (Received.frame parse) r (event.head ++ (event.dataLine ++ ['\n', '\n']))
      = (event.handed.foldl (Received.yieldData parse) r, []) := by
  have hne : event.dataLine ≠ [] := by simp [EventEnvelope.dataLine]
  have hlast := event.frameData_last
  rw [drain_append, drain_eq_foldl r event.head, ← List.append_assoc,
    drain_close (blankAt_frames _) event.lineFeed_not_mem hne, foldl_frame, Received.frame,
    if_neg (by simp [hlast]), EventEnvelope.handed, List.foldl_append]
  rfl

theorem drain_keepAlive (r : Received α) :
    drain '\n' (Received.frame parse) r ": keep-alive\n\n".toList = (r, []) :=
  @drain_close _ _ _ _ _ [] ": keep-alive".toList rfl (by decide) (by decide) r

/-- The client parses what the events hand over, in order. -/
theorem drain_streamText {sent : List Frame} {text : List Char} (h : streamText sent = .ok text)
    (r : Received α) : drain '\n' (Received.frame parse) r text
      = (((events sent).flatMap EventEnvelope.handed).foldl (Received.yieldData parse) r, []) := by
  induction sent generalizing text r with
  | nil =>
    cases h
    exact drain_of_none rfl
  | cons frame sent ih =>
    obtain ⟨first, hfirst, h⟩ := Except.bind_eq_ok.mp h
    obtain ⟨rest, hrest, h⟩ := Except.bind_eq_ok.mp h
    cases h
    rw [drain_append]
    cases frame with
    | keepAlive =>
      cases hfirst
      rw [drain_keepAlive]
      exact ih hrest r
    | event event =>
      rw [Frame.text, sse] at hfirst
      split_ifs at hfirst
      cases hfirst
      rw [drain_event]
      refine (ih hrest _).trans ?_
      rw [show events (.event event :: sent) = event :: events sent from rfl, List.flatMap_cons,
        List.foldl_append]

theorem foldl_yieldData_failed (texts : List (List Char)) (ys : List α) :
    texts.foldl (Received.yieldData parse) ⟨ys, true⟩ = ⟨ys, true⟩ := by
  induction texts with
  | nil => rfl
  | cons data texts ih => exact ih

/-- Nothing has thrown exactly when every text was parsed. -/
theorem foldl_yieldData_eq {texts : List (List Char)} {ys zs : List α} :
    texts.foldl (Received.yieldData parse) ⟨ys, false⟩ = ⟨zs, false⟩
      ↔ ∃ values, texts.map parse = values.map some ∧ zs = ys ++ values := by
  induction texts generalizing ys with
  | nil =>
    rw [List.foldl_nil]
    constructor
    · intro h
      cases h
      exact ⟨[], rfl, (List.append_nil _).symm⟩
    · rintro ⟨values, hvalues, rfl⟩
      rw [List.map_eq_nil_iff.mp hvalues.symm, List.append_nil]
  | cons data texts ih =>
    rw [List.foldl_cons, Received.yieldData, if_neg Bool.false_ne_true]
    cases hdata : parse data with
    | none =>
      simp only [foldl_yieldData_failed]
      constructor
      · intro h
        cases h
      · rintro ⟨values, hvalues, -⟩
        rw [List.map_cons, hdata] at hvalues
        cases values with
        | nil => cases hvalues
        | cons value values => cases hvalues
    | some value =>
      simp only
      rw [ih]
      constructor
      · rintro ⟨values, hvalues, rfl⟩
        exact ⟨value :: values, by rw [List.map_cons, hdata, hvalues, List.map_cons], by simp⟩
      · rintro ⟨values, hvalues, rfl⟩
        rw [List.map_cons, hdata] at hvalues
        cases values with
        | nil => cases hvalues
        | cons first values =>
          obtain ⟨hfirst, hrest⟩ := List.cons.inj hvalues
          cases hfirst
          exact ⟨values, hrest, by simp⟩

end Client

/-! ### What comes through -/

/-- The pieces of a harmless head hand over nothing, and line feeds stand before the JSON text. -/
theorem Harmless.handed_eq {event : EventEnvelope} (h : Harmless event) :
    ∃ k, event.handed = [List.replicate k '\n' ++ event.json.dumps] := by
  obtain ⟨hpieces, hrest⟩ := h
  have hjoin : ∀ lines : List (List Char), (∀ line ∈ lines, line = []) →
      ['\n'].intercalate (lines ++ [event.json.dumps])
        = List.replicate lines.length '\n' ++ event.json.dumps := by
    intro lines hlines
    induction lines with
    | nil => simp
    | cons line lines ih =>
      obtain ⟨rfl, hempty⟩ := List.forall_mem_cons.mp hlines
      rw [List.cons_append, List.intercalate_cons_of_ne_nil (by simp), ih hempty]
      rfl
  have hnone : ((frames '\n' event.head).1.map frameData).filter (fun data => !data.isEmpty)
      = [] := by
    rw [List.filter_eq_nil_iff, List.forall_mem_map]
    intro frame hframe
    rw [hpieces frame hframe]
    decide
  refine ⟨(dataLines (frames '\n' event.head).2).length, ?_⟩
  rw [EventEnvelope.handed, hnone, frameData, event.dataLines_last, hjoin _ hrest]
  rfl

theorem isTrimmed_of_isJsonSpace {c : Char} (h : Json.isJsonSpace c = true) :
    isTrimmed c = true := by
  simp only [Json.isJsonSpace, Bool.or_eq_true, decide_eq_true_eq] at h
  rcases h with ((rfl | rfl) | rfl) | rfl <;> decide

/-- A data line does not start with white space. -/
theorem not_isTrimmed_of_dataLines {frame cs : List Char} {c : Char}
    (h : c :: cs ∈ dataLines frame) : isTrimmed c = false := by
  obtain ⟨line, -, hline⟩ := List.mem_map.mp h
  have hhead := List.head?_dropWhile_not isTrimmed (line.drop 5)
  rw [hline] at hhead
  simpa using hhead

theorem mem_intercalate {sep line : List Char} {lines : List (List Char)} (h : line ∈ lines)
    {c : Char} (hc : c ∈ line) : c ∈ sep.intercalate lines := by
  induction lines with
  | nil => cases h
  | cons first lines ih =>
    cases lines with
    | nil =>
      rw [List.mem_singleton.mp h] at hc
      simpa using hc
    | cons second lines =>
      rw [List.intercalate_cons_of_ne_nil (by simp)]
      rcases List.mem_cons.mp h with rfl | hrest
      · simp [hc]
      · simp [ih hrest]

theorem intercalate_concat {sep last : List Char} {lines : List (List Char)} (h : lines ≠ []) :
    sep.intercalate (lines ++ [last]) = sep.intercalate lines ++ (sep ++ last) := by
  induction lines with
  | nil => exact absurd rfl h
  | cons first lines ih =>
    cases lines with
    | nil => simp [List.intercalate_cons_of_ne_nil]
    | cons second lines =>
      have hrest : second :: lines ++ [last] ≠ [] := by simp
      have hlines : second :: lines ≠ [] := by simp
      rw [List.cons_append, List.intercalate_cons_of_ne_nil hrest, ih hlines,
        List.intercalate_cons_of_ne_nil hlines]
      simp only [List.append_assoc]

/-- An event that hands over one text that is parsed is harmless. -/
theorem harmless_of_handed {α : Type} (json : JsonParse α) {event : EventEnvelope}
    (hencodable : event.json.encodable = true) (hone : event.handed.length = 1)
    (hparsed : ∀ text ∈ event.handed, (json.parse text).isSome = true) : Harmless event := by
  rw [EventEnvelope.handed, List.length_append, List.length_singleton, Nat.add_eq_right,
    List.length_eq_zero_iff, List.filter_eq_nil_iff, List.forall_mem_map] at hone
  constructor
  · intro frame hframe
    simpa using hone frame hframe
  · intro line hline
    have hlast := hparsed _ (List.mem_append_right _ (List.mem_singleton_self _))
    rw [frameData, event.dataLines_last, intercalate_concat (List.ne_nil_of_mem hline)] at hlast
    have hspace := json.parse_line _ _ hencodable hlast
    cases line with
    | nil => rfl
    | cons c cs =>
      have hc := hspace c (mem_intercalate hline List.mem_cons_self)
      exact absurd (isTrimmed_of_isJsonSpace hc) (by rw [not_isTrimmed_of_dataLines hline]; decide)

/-- Harmless events hand over what is parsed as their envelopes. -/
theorem map_parse_handed {α : Type} (json : JsonParse α) {events : List EventEnvelope}
    (hencodable : ∀ event ∈ events, event.json.encodable = true)
    (hunique : ∀ event ∈ events, event.json.uniqueKeys = true)
    (hharmless : ∀ event ∈ events, Harmless event) :
    (events.flatMap EventEnvelope.handed).map json.parse
      = events.map fun event => some (json.ofJson event.json) := by
  induction events with
  | nil => rfl
  | cons event events ih =>
    obtain ⟨hfirst, hencodable⟩ := List.forall_mem_cons.mp hencodable
    obtain ⟨hkeys, hunique⟩ := List.forall_mem_cons.mp hunique
    obtain ⟨hevent, hharmless⟩ := List.forall_mem_cons.mp hharmless
    obtain ⟨k, hk⟩ := hevent.handed_eq
    rw [List.flatMap_cons, List.map_append, ih hencodable hunique hharmless, hk, List.map_singleton,
      json.parse_dumps _ k hfirst hkeys]
    rfl

/-- Every event hands over at least one text. -/
theorem length_handed_eq_one {events : List EventEnvelope}
    (h : (events.flatMap EventEnvelope.handed).length = events.length) :
    ∀ event ∈ events, event.handed.length = 1 := by
  have hpos : ∀ event : EventEnvelope, 1 ≤ event.handed.length := by
    intro event
    rw [EventEnvelope.handed, List.length_append]
    exact Nat.le_add_left _ _
  have hle : ∀ events : List EventEnvelope,
      events.length ≤ (events.flatMap EventEnvelope.handed).length := by
    intro events
    induction events with
    | nil => exact le_rfl
    | cons event events ih =>
      rw [List.flatMap_cons, List.length_append, List.length_cons]
      have hfirst := hpos event
      omega
  induction events with
  | nil => nofun
  | cons event events ih =>
    rw [List.flatMap_cons, List.length_append, List.length_cons] at h
    have hfirst := hpos event
    have hrest := hle events
    exact List.forall_mem_cons.mpr ⟨by omega, ih (by omega)⟩

/-! ### Envelopes -/

/-- The ids of a payload are under different keys. -/
theorem uniqueKeys_json (codeVersion : String) (event : LedgerEvent) :
    (eventEnvelope codeVersion event).json.uniqueKeys = true := by
  have hpayload : (Json.obj (eventEnvelope codeVersion event).payload).uniqueKeys = true := by
    have hunique := (Json.normal_iff.mp event.payload.normal).1
    rw [Json.uniqueKeys, Json.allObjects, Bool.and_eq_true, decide_eq_true_eq,
      Json.allEntries_iff] at hunique ⊢
    obtain ⟨hkeys, hvalues⟩ := hunique
    exact ⟨hkeys.sublist (List.filter_sublist.map _),
      fun e he => hvalues e (List.mem_of_mem_filter he)⟩
  apply Json.uniqueKeys_obj ["event_id", "ledger_seq", "type", "ts", "session_id", "actor_id",
    "actor_class", "round", "payload", "schema_version", "code_version"] rfl (by decide)
  simp only [List.forall_mem_cons]
  exact ⟨rfl, rfl, rfl, rfl, rfl, rfl, rfl, rfl, hpayload, rfl, rfl, nofun⟩

theorem encodable_of_streamText {sent : List Frame} {text : List Char}
    (h : streamText sent = .ok text) : ∀ event ∈ events sent, event.json.encodable = true := by
  induction sent generalizing text with
  | nil => nofun
  | cons frame sent ih =>
    obtain ⟨first, hfirst, h⟩ := Except.bind_eq_ok.mp h
    obtain ⟨rest, hrest, -⟩ := Except.bind_eq_ok.mp h
    cases frame with
    | keepAlive => exact ih hrest
    | event event =>
      rw [Frame.text, sse] at hfirst
      split_ifs at hfirst with hencodable
      exact List.forall_mem_cons.mpr ⟨hencodable, ih hrest⟩

/-- A stream starts with a frame's first character. -/
theorem head?_streamText {sent : List Frame} {text : List Char} (h : streamText sent = .ok text) :
    text.head? ≠ some '\uFEFF' := by
  cases sent with
  | nil =>
    cases h
    decide
  | cons frame sent =>
    obtain ⟨first, hfirst, h⟩ := Except.bind_eq_ok.mp h
    obtain ⟨rest, -, h⟩ := Except.bind_eq_ok.mp h
    cases h
    cases frame with
    | keepAlive =>
      cases hfirst
      simp
    | event event =>
      rw [Frame.text, sse] at hfirst
      split_ifs at hfirst
      cases hfirst
      simp [EventEnvelope.head]

/-- **Framing.**  Whatever way the bytes of a stream are divided, the client yields the envelopes of
    its events, in order and once each, exactly if the types of all of them are harmless. -/
theorem streamSessionEvents_exact {α : Type} (decoder : TextDecoder) (json : JsonParse α)
    (codeVersion : String) {ledger : List LedgerEvent} {sent : List Frame}
    (hsent : events sent = ledger.map (eventEnvelope codeVersion)) {bytes : Bytes}
    (hwritten : written sent = .ok bytes) {chunks : List Bytes} (hchunks : chunks.flatten = bytes) :
    streamSessionEvents json.parse (decoder.decode chunks)
        = ⟨ledger.map fun event => json.ofJson (eventEnvelope codeVersion event).json, false⟩
      ↔ ∀ event ∈ ledger, Harmless (eventEnvelope codeVersion event) := by
  obtain ⟨text, htext, rfl⟩ := Except.map_eq_ok.mp hwritten
  have hdecode := decoder.decode_utf8 chunks text (head?_streamText htext) hchunks
  have hencodable := encodable_of_streamText htext
  rw [streamSessionEvents, foldl_feed, hdecode, drain_streamText htext, foldl_yieldData_eq, hsent]
  rw [hsent] at hencodable
  constructor
  · rintro ⟨values, hvalues, hyielded⟩
    rw [List.nil_append] at hyielded
    have hlength : ((ledger.map (eventEnvelope codeVersion)).flatMap EventEnvelope.handed).length
        = (ledger.map (eventEnvelope codeVersion)).length := by
      have hparsed := congrArg List.length hvalues
      rw [List.length_map, List.length_map, ← hyielded, List.length_map] at hparsed
      rw [hparsed, List.length_map]
    have hone := length_handed_eq_one hlength
    intro event hevent
    have hmem := List.mem_map_of_mem (f := eventEnvelope codeVersion) hevent
    apply harmless_of_handed json (hencodable _ hmem) (hone _ hmem)
    intro text htext
    have hvalue : json.parse text ∈ values.map some := by
      rw [← hvalues]
      exact List.mem_map_of_mem (List.mem_flatMap.mpr ⟨_, hmem, htext⟩)
    obtain ⟨value, -, hvalue⟩ := List.mem_map.mp hvalue
    rw [← hvalue]
    rfl
  · intro hharmless
    have hunique : ∀ envelope ∈ ledger.map (eventEnvelope codeVersion),
        envelope.json.uniqueKeys = true :=
      List.forall_mem_map.mpr fun event _ => uniqueKeys_json codeVersion event
    refine ⟨_, ?_, (List.nil_append _).symm⟩
    rw [map_parse_handed json hencodable hunique (List.forall_mem_map.mpr hharmless),
      List.map_map, List.map_map]
    rfl

/-! ### Types -/

/-- A line of another field. -/
theorem dataLines_eq_nil {line : List Char} (h : '\n' ∉ line)
    (hfield : "data:".toList.isPrefixOf line = false) : dataLines line = [] := by
  rw [dataLines, List.splitOn_eq_singleton h, List.filter_cons_of_neg (Bool.eq_false_iff.mp hfield)]
  rfl

/-- A type of one line is harmless. -/
theorem harmless_of_one_line {event : EventEnvelope} (h : '\n' ∉ event.type.toList) :
    Harmless event := by
  have hid : '\n' ∉ ['i', 'd', ':', ' '] ++ Json.intText event.ledgerSeq := by
    intro hmem
    rcases List.mem_append.mp hmem with hname | hnumber
    · exact absurd hname (by decide)
    · have hprintable := (Json.printable_intText _ _ hnumber).1
      exact absurd hprintable (by decide)
  have htype : '\n' ∉ ['e', 'v', 'e', 'n', 't', ':', ' '] ++ event.type.toList := by
    rw [List.mem_append, not_or]
    exact ⟨by decide, h⟩
  have hhead : event.head = (['i', 'd', ':', ' '] ++ Json.intText event.ledgerSeq) ++ '\n' ::
      (['e', 'v', 'e', 'n', 't', ':', ' '] ++ event.type.toList ++ ['\n']) := by
    rw [EventEnvelope.head]
    simp only [List.append_assoc, List.cons_append, List.nil_append]
  have hblank : blankAt '\n' event.head = none := by
    rw [hhead]
    exact blankAt_line_append hid (by decide) (blankAt_line htype)
  have hdata : dataLines event.head = [] := by
    rw [hhead, dataLines_append, dataLines_eq_nil hid rfl, dataLines_append,
      dataLines_eq_nil htype rfl]
    rfl
  unfold Harmless
  rw [frames_of_none hblank, hdata]
  exact ⟨nofun, nofun⟩

/-! ### Samples -/

/-- The parser of JSON texts, that keeps numbers as they are. -/
def jsonLoads : JsonParse Json where
  parse text := (Json.loads text.length text).toOption
  ofJson := id
  parse_dumps j k hencodable hunique := by
    have hlength : j.depth ≤ (List.replicate k '\n' ++ j.dumps).length := by
      rw [List.length_append]
      exact (Json.depth_le_length j).trans (Nat.le_add_left _ _)
    have hlead : ∀ c ∈ List.replicate k '\n', Json.isJsonSpace c = true := by
      intro c hc
      rw [List.eq_of_mem_replicate hc]
      rfl
    have hread := (Json.readAs_dumps j hencodable).loads_spaced hlength hlead (.inl rfl)
    rw [List.append_nil, Json.dedup_eq_self hunique] at hread
    rw [hread]
    rfl
  parse_line entries x hencodable hparsed := by
    cases hread : Json.loads (x ++ '\n' :: (Json.obj entries).dumps).length
        (x ++ '\n' :: (Json.obj entries).dumps) with
    | error e =>
      rw [hread] at hparsed
      cases hparsed
    | ok v =>
      exact Json.loads_barrier ⟨_, by rw [Json.dumps]⟩ (Json.readAs_dumps _ hencodable) hread

/-- One string, when all bytes have arrived. -/
def wholeText : TextDecoder where
  decode chunks := [(decodeUtf8 chunks.flatten).getD []]
  decode_utf8 chunks text _ hchunks := by
    rw [hchunks, decodeUtf8_utf8]
    simp

def sampleOfType (type : Ledger.NonBlank) : LedgerEvent where
  toLedgerAppend := { Session.sampleEvent 1 with eventType := type }
  ledgerSeq := 1
  payloadHash := Ledger.genesisHash
  prevHash := Ledger.genesisHash
  eventHash := Ledger.genesisHash
  positive_seq := Nat.one_pos

def proposed : EventEnvelope := eventEnvelope "" (sampleOfType ⟨"CLAIM_PROPOSED", by decide⟩)

/-- A type with a line of data in it. -/
def misread : EventEnvelope := eventEnvelope "" (sampleOfType ⟨"A\ndata: x", by decide⟩)

theorem streamText_event {event : EventEnvelope} (h : event.json.encodable = true) :
    streamText [.event event] = .ok (event.head ++ (event.dataLine ++ ['\n', '\n'])) := by
  rw [streamText, Frame.text, sse, if_pos h, streamText, Except.ok_bind, Except.ok_bind,
    List.append_nil]

theorem written_event {event : EventEnvelope} (h : event.json.encodable = true) :
    written [.event event] = .ok (utf8 (event.head ++ (event.dataLine ++ ['\n', '\n']))) := by
  rw [written, streamText_event h]
  rfl

/-- A stream of one event. -/
theorem streamSessionEvents_event {α : Type} (decoder : TextDecoder) (parse : List Char → Option α)
    {event : EventEnvelope} (h : event.json.encodable = true) :
    streamSessionEvents parse (decoder.decode
        [utf8 (event.head ++ (event.dataLine ++ ['\n', '\n']))])
      = event.handed.foldl (Received.yieldData parse) ⟨[], false⟩ := by
  have hdecode := decoder.decode_utf8 [utf8 (event.head ++ (event.dataLine ++ ['\n', '\n']))] _
    (head?_streamText (streamText_event h)) (List.append_nil _)
  rw [streamSessionEvents, foldl_feed, hdecode, drain_event]

theorem streamSessionEvents_sample :
    streamSessionEvents jsonLoads.parse (wholeText.decode
        [utf8 (proposed.head ++ (proposed.dataLine ++ ['\n', '\n']))]) = ⟨[proposed.json], false⟩ :=
  (@streamSessionEvents_exact _ wholeText jsonLoads ""
    [sampleOfType ⟨"CLAIM_PROPOSED", by decide⟩] [.event proposed] rfl _
    (written_event (by decide +kernel)) _ (List.append_nil _)).mpr
    (List.forall_mem_singleton.mpr (harmless_of_one_line (by decide)))

/-- The second line of the type is read as data, and with the JSON text it is no JSON. -/
theorem streamSessionEvents_misread :
    written [.event misread] = .ok (utf8 (misread.head ++ (misread.dataLine ++ ['\n', '\n'])))
      ∧ streamSessionEvents jsonLoads.parse (wholeText.decode
          [utf8 (misread.head ++ (misread.dataLine ++ ['\n', '\n']))]) = ⟨[], true⟩ := by
  have hencodable : misread.json.encodable = true := by decide +kernel
  have hframes : frames '\n' misread.head = ([], misread.head) := frames_of_none (by decide +kernel)
  have hlines : dataLines misread.head = [['x']] := by decide +kernel
  have hjoin : ∀ data, ['\n'].intercalate ([['x']] ++ [data]) = 'x' :: '\n' :: data := by
    intro data
    rw [intercalate_concat (by simp), List.intercalate_singleton]
    rfl
  have hrejected : ∀ cs, jsonLoads.parse ('x' :: cs) = none := fun cs => rfl
  refine ⟨written_event hencodable, ?_⟩
  rw [streamSessionEvents_event _ _ hencodable, EventEnvelope.handed, frameData,
    misread.dataLines_last, hframes, hlines, List.map_nil, List.filter_nil, List.nil_append,
    List.foldl_cons, List.foldl_nil, Received.yieldData, if_neg Bool.false_ne_true, hjoin,
    hrejected]

end Agora.Realtime
