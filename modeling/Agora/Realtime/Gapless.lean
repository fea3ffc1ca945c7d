import Agora.Realtime.Stream
import Agora.Ledger.Idempotence
import Mathlib.Data.List.Infix

namespace Agora.Realtime

open Ledger (Chained Database LedgerAppend LedgerEvent LedgerState append_cases chained_genesis genesis
  genesisHash ofSession_insert rows_eq_ofSession)
open Session (AllConsistent Effect LifecycleCommand SessionLifecycle setValue)
open Coordinator (appendTo)

/-!
# The stream has no gaps

In every run the events that a client has received are those after the one it first asked for, each
once and in order (`Sound`).  A stream that returns has yielded all that was committed, a notification
stays pending until the stream reads again, and whatever is unread when it waits is yielded after
boundedly many steps of its own once it wakes up (`stream_gapless`).
-/

/-! ### Commits -/

/-- What the reads of a stream rely on. -/
structure Readable (s : Store) : Prop where
  chained : Chained s.ledger
  consistent : AllConsistent s.values

/-- The lifecycle of a session has ended. -/
def Ended (s : Store) (w n : UUID) : Prop :=
  ∃ row, s.values (w, n) = some row ∧ row.state.terminal = true

theorem readable_emptyStore (workspace : UUID → Option UUID) : Readable (emptyStore workspace) where
  chained := chained_genesis workspace
  consistent _ _ h := by cases h

section Commit

variable {db : Database} {c : Commit} {s : Store}

theorem commit_ledger (db : Database) (c : Commit) (s : Store) :
    (commit db c s).2.ledger = s.ledger
      ∨ ∃ e, (commit db c s).2.ledger = (Ledger.append db e s.ledger).2 := by
  cases c with
  | append event => exact .inr ⟨event, rfl⟩
  | lifecycle command =>
    rcases Session.sql_ledger (appendTo db) command s with hsame | ⟨t, -, happend⟩
    · exact .inl hsame
    · exact .inr ⟨t.event, happend⟩

/-- A commit adds events at the end of a session. -/
theorem ofSession_prefix_commit (db : Database) (c : Commit) (s : Store) (w n : UUID) :
    s.ledger.ofSession w n <+: (commit db c s).2.ledger.ofSession w n := by
  rcases commit_ledger db c s with hsame | ⟨e, happend⟩
  · rw [hsame]
  · rw [happend]
    rcases append_cases db e s.ledger with ⟨hsame, -⟩ | ⟨p, head, -, -, hstored, -⟩
    · rw [hsame]
    · rw [hstored, ofSession_insert]
      exact List.prefix_append _ _

/-- Every projection that a command writes is consistent. -/
theorem allConsistent_sql {append : LedgerAppend → LedgerState → Py Unit × LedgerState}
    (h : AllConsistent s.values) (command : LifecycleCommand) :
    AllConsistent (Session.sql append command s).2.values := by
  have heffect : Session.Effect _ s.values command (Session.sql append command s).2.values :=
    Session.sql_effect command
  generalize (Session.sql append command s).2.values = values' at heffect
  cases heffect with
  | nothing => exact h
  | addDraft hnone =>
    apply Session.forall_setValue fun k v hv _ => h k v hv
    exact ⟨rfl, le_rfl, fun _ => rfl, fun hdraft => absurd rfl hdraft,
      fun hdraft => absurd (by simp) hdraft, rfl⟩
  | attachWorkflow hcurrent =>
    apply Session.forall_setValue fun k v hv _ => h k v hv
    have hconsistent := h _ _ hcurrent
    exact ⟨rfl, hconsistent.updated, hconsistent.draft, hconsistent.initialized,
      hconsistent.started, hconsistent.ended⟩
  | transition hcurrent haccepts =>
    exact Session.forall_setValue (fun k v hv _ => h k v hv) haccepts.2

theorem readable_commit (db : Database) (c : Commit) (h : Readable s) :
    Readable (commit db c s).2 where
  chained := by
    rcases commit_ledger db c s with hsame | ⟨e, happend⟩
    · rw [hsame]
      exact h.chained
    · rw [happend]
      exact h.chained.append db e
  consistent := by
    cases c with
    | append event => exact h.consistent
    | lifecycle command => exact allConsistent_sql h.consistent command

/-- A session that has ended stays in its state. -/
theorem ended_commit (db : Database) (c : Commit) {w n : UUID} (h : Ended s w n) :
    Ended (commit db c s).2 w n := by
  obtain ⟨row, hrow, hterminal⟩ := h
  cases c with
  | append event => exact ⟨row, hrow, hterminal⟩
  | lifecycle command =>
    have heffect : Session.Effect _ s.values command (Session.sql (appendTo db) command s).2.values :=
      Session.sql_effect command
    show ∃ row, (Session.sql (appendTo db) command s).2.values (w, n) = some row ∧ _
    generalize (Session.sql (appendTo db) command s).2.values = values' at heffect
    -- The key of the command is another one, or the state of the row is kept.
    have hset : ∀ key new, (∀ old, s.values key = some old → old.state.terminal = true →
        new.state = old.state) → ∃ row, setValue key new s.values (w, n) = some row
          ∧ row.state.terminal = true := by
      intro key new hstate
      by_cases hkey : (w, n) = key
      · subst hkey
        refine ⟨new, Session.setValue_self _ _, ?_⟩
        rw [hstate row hrow hterminal]
        exact hterminal
      · exact ⟨row, (Session.setValue_of_ne _ hkey).trans hrow, hterminal⟩
    cases heffect with
    | nothing => exact ⟨row, hrow, hterminal⟩
    | addDraft hnone =>
      apply hset
      intro old hold
      rw [hnone] at hold
      cases hold
    | attachWorkflow hcurrent =>
      apply hset
      intro old hold _
      obtain rfl := Option.some.inj (hcurrent.symm.trans hold)
      rfl
    | transition hcurrent haccepts =>
      apply hset
      intro old hold hended
      obtain rfl := Option.some.inj (hcurrent.symm.trans hold)
      rcases Session.checkTransition_ok haccepts.1.checked with ⟨hstate, -⟩ | ⟨-, hedge, -⟩
      · exact hstate.symm
      · rw [Session.SessionLifecycleState.transitions_of_terminal hended] at hedge
        cases hedge

end Commit

/-! ### Reads -/

/-- A page from a sequence number on is a page of what follows the numbers before it. -/
theorem readFrom_eq {l : LedgerState} (h : Chained l) (w n : UUID) (k : ℕ) :
    l.readFrom w n (k + 1) pageLimit = .ok (((l.ofSession w n).drop k).take pageLimit) := by
  have hfilter : ∀ (m : ℕ) (g : Marl.Hash) (events : List LedgerEvent) (k : ℕ),
      Ledger.Chain g m events →
      events.filter (fun e => decide (m + k ≤ e.ledgerSeq)) = events.drop k := by
    intro m g events
    induction events generalizing m g with
    | nil =>
      intro k _
      rw [List.drop_nil]
      rfl
    | cons e events ih =>
      intro k hchain
      obtain ⟨hseq, -, hrest⟩ := hchain
      cases k with
      | zero =>
        rw [List.drop_zero, List.filter_eq_self]
        intro x hx
        rcases List.mem_cons.mp hx with rfl | hx
        · exact decide_eq_true (by omega)
        · obtain ⟨j, hj, rfl⟩ := List.getElem_of_mem hx
          have hnumber := hrest.number_getElem hj
          exact decide_eq_true (by omega)
      | succ k =>
        have hearlier : ¬ m + (k + 1) ≤ e.ledgerSeq := by omega
        rw [List.filter_cons_of_neg (by simpa using hearlier), List.drop_succ_cons,
          ← ih (m + 1) _ k hrest]
        congr 1
        funext x
        rw [Nat.add_assoc, Nat.add_comm 1 k]
  unfold LedgerState.readFrom
  rw [if_neg (Nat.succ_ne_zero k), if_neg (by decide), rows_eq_ofSession h]
  have heq := hfilter 1 genesisHash (l.ofSession w n) k (h.chain w n)
  rw [Nat.add_comm 1 k] at heq
  rw [heq]

/-- The lifecycle of a session can be read. -/
theorem getLifecycle_eq {s : Store} (h : AllConsistent s.values) (w n : UUID) :
    getLifecycle s w n = .ok (s.values (w, n)) := by
  unfold getLifecycle
  cases hrow : s.values (w, n) with
  | none => rfl
  | some row =>
    simp only [Session.projection,
      SessionLifecycle.consistentProjection_eq_ok.mpr (h _ _ hrow), Except.ok_bind]
    rfl

/-! ### The invariant -/

/-- Where a client stands that asked for the events of `(w, n)` after `a`. -/
structure Sound (codeVersion : String) (w n : UUID) (a : ℕ) (s : World) : Prop where
  readable : Readable s.store
  workspaceId : s.stream.workspaceId = w
  sessionId : s.stream.sessionId = n
  origin : s.origin = a
  /-- The client has received the first events after `a`. -/
  received : events s.received
    <+: ((s.store.ledger.ofSession w n).drop a).map (eventEnvelope codeVersion)
  nextSeq : s.stream.nextSeq = a + (events s.received).length + 1
  /-- A page goes on where the client stands. -/
  page : ∀ page, s.stream.phase = .yieldEvents page →
    page <+: (s.store.ledger.ofSession w n).drop (a + (events s.received).length)
  ended : s.stream.phase = .readEvents true ∨ s.stream.phase = .returned → Ended s.store w n

section Invariant

variable {db : Database} {parseUuid : String → Option UUID} {codeVersion : String} {w n : UUID} {a : ℕ}
  {s : World}

theorem events_append (frames frames' : List Frame) :
    events (frames ++ frames') = events frames ++ events frames' :=
  List.filterMap_append

theorem sound_connected (db : Database) (codeVersion : String) (workspace : UUID → Option UUID)
    (commits : List Commit) (w n : UUID) (a : ℕ) :
    Sound codeVersion w n a (connected db workspace commits w n a) where
  readable := after_invariant (P := fun _ _ => True) (fun _ c h _ => readable_commit db c h)
    (readable_emptyStore workspace) (along_of_forall (fun _ _ => trivial) _ _)
  workspaceId := rfl
  sessionId := rfl
  origin := rfl
  received := List.nil_prefix
  nextSeq := rfl
  page _ h := by cases h
  ended h := by rcases h with h | h <;> cases h

/-- What is next in a session that the client has received up to here. -/
theorem prefix_concat {α β : Type} {f : α → β} {l : List α} {got : List β} {a : ℕ} {x : α}
    {page : List α} (hgot : got <+: (l.drop a).map f) (hpage : x :: page <+: l.drop (a + got.length)) :
    got ++ [f x] <+: (l.drop a).map f ∧ page <+: l.drop (a + got.length + 1) := by
  obtain ⟨rest, hrest⟩ := hpage
  have hdrop : (l.drop a).drop got.length = x :: (page ++ rest) := by
    rw [List.drop_drop, ← hrest, List.cons_append]
  constructor
  · obtain ⟨tail, htail⟩ := hgot
    have hmap : tail = f x :: (page ++ rest).map f := by
      have hboth := congrArg (List.drop got.length) htail
      rw [List.drop_left, ← List.map_drop, hdrop, List.map_cons] at hboth
      exact hboth
    refine ⟨(page ++ rest).map f, ?_⟩
    rw [List.append_assoc, List.singleton_append, ← hmap, htail]
  · refine ⟨rest, ?_⟩
    rw [Nat.add_assoc, ← List.drop_drop, ← List.drop_drop, hdrop, List.drop_succ_cons, List.drop_zero]

/-- The number of an event follows from its place. -/
theorem ledgerSeq_of_drop {l : LedgerState} (h : Chained l) {w n : UUID} {k : ℕ} {x : LedgerEvent}
    {page : List LedgerEvent} (hpage : x :: page <+: (l.ofSession w n).drop k) :
    x.ledgerSeq = k + 1 := by
  obtain ⟨rest, hrest⟩ := hpage
  have hlt : k < (l.ofSession w n).length := by
    by_contra hge
    rw [List.drop_eq_nil_of_le (by omega)] at hrest
    cases hrest
  rw [List.drop_eq_getElem_cons hlt, List.cons_append] at hrest
  rw [(List.cons.inj hrest).1, (h.chain w n).number_getElem hlt]
  omega

/-- The events of a sound client are numbered without a gap. -/
theorem Sound.numbers (h : Sound codeVersion w n a s) :
    (events s.received).map (·.ledgerSeq) = List.range' (a + 1) (events s.received).length := by
  have hnumbers : ((s.store.ledger.ofSession w n).drop a).map LedgerEvent.ledgerSeq
      = List.range' (a + 1) ((s.store.ledger.ofSession w n).length - a) := by
    rw [List.map_drop, (h.readable.chained.chain w n).map_number, List.drop_range', Nat.mul_one,
      Nat.add_comm 1 a]
  have hlength := h.received.length_le
  rw [List.length_map, List.length_drop] at hlength
  have hall := h.received.map (·.ledgerSeq)
  rw [List.map_map] at hall
  rw [List.prefix_iff_eq_take.mp hall, List.length_map]
  show ((_ : List LedgerEvent).map LedgerEvent.ledgerSeq).take _ = _
  rw [hnumbers, List.take_range'_of_length_ge hlength]

/-- A stream that stands where the old one stood. -/
theorem Sound.withPhase (h : Sound codeVersion w n a s) (wakeup : Bool) (phase : Phase)
    (hpage : ∀ page, phase = .yieldEvents page →
      page <+: (s.store.ledger.ofSession w n).drop (a + (events s.received).length))
    (hended : phase = .readEvents true ∨ phase = .returned → Ended s.store w n) :
    Sound codeVersion w n a { s with stream := { s.stream with wakeup, phase } } where
  readable := h.readable
  workspaceId := h.workspaceId
  sessionId := h.sessionId
  origin := h.origin
  received := h.received
  nextSeq := h.nextSeq
  page := hpage
  ended := hended

/-- Frames without events. -/
theorem Sound.withFrames (h : Sound codeVersion w n a s) {frames : List Frame}
    (hframes : events frames = []) : Sound codeVersion w n a { s with received := s.received ++ frames } := by
  have hevents : events (s.received ++ frames) = events s.received := by
    rw [events_append, hframes, List.append_nil]
  exact
    { readable := h.readable
      workspaceId := h.workspaceId
      sessionId := h.sessionId
      origin := h.origin
      received := hevents.symm ▸ h.received
      nextSeq := hevents.symm ▸ h.nextSeq
      page := hevents.symm ▸ h.page
      ended := h.ended }

theorem sound_commit (db : Database) (c : Commit) (h : Sound codeVersion w n a s) :
    Sound codeVersion w n a { s with store := (commit db c s.store).2 } where
  readable := readable_commit db c h.readable
  workspaceId := h.workspaceId
  sessionId := h.sessionId
  origin := h.origin
  received := h.received.trans (((ofSession_prefix_commit db c s.store w n).drop a).map _)
  nextSeq := h.nextSeq
  page page hpage := (h.page page hpage).trans ((ofSession_prefix_commit db c s.store w n).drop _)
  ended hphase := ended_commit db c (h.ended hphase)

/-- What a stream does with the page it reads. -/
theorem advance_readEvents (h : Sound codeVersion w n a s) {terminal : Bool}
    (hphase : s.stream.phase = .readEvents terminal) :
    s.stream.advance codeVersion s.store
      = ([], { s.stream with
          phase := match ((s.store.ledger.ofSession w n).drop
              (a + (events s.received).length)).take pageLimit with
            | [] => if terminal then .returned else .wait
            | event :: page => .yieldEvents (event :: page) }) := by
  unfold Stream.advance
  simp only [hphase, h.workspaceId, h.sessionId, h.nextSeq, readFrom_eq h.readable.chained]
  cases ((s.store.ledger.ofSession w n).drop (a + (events s.received).length)).take pageLimit with
  | nil => rfl
  | cons event page => rfl

theorem sound_advance (h : Sound codeVersion w n a s) :
    Sound codeVersion w n a
      { s with
        stream := (s.stream.advance codeVersion s.store).2
        received := s.received ++ (s.stream.advance codeVersion s.store).1 } := by
  have hquiet : ∀ (wakeup : Bool) (phase : Phase), (∀ page, phase ≠ .yieldEvents page) →
      (phase = .readEvents true ∨ phase = .returned → Ended s.store w n) →
      Sound codeVersion w n a
        { s with stream := { s.stream with wakeup, phase }, received := s.received ++ [] } := by
    intro wakeup phase hpage hended
    exact (h.withPhase wakeup phase (fun page hyield => absurd hyield (hpage page)) hended).withFrames rfl
  have hmoving : ∀ {phase : Phase}, phase ≠ .readEvents true → phase ≠ .returned →
      phase = .readEvents true ∨ phase = .returned → Ended s.store w n := by
    intro phase hread hreturned hend
    rcases hend with hend | hend
    · exact absurd hend hread
    · exact absurd hend hreturned
  cases hphase : s.stream.phase with
  | clear =>
    simp only [Stream.advance, hphase]
    exact hquiet _ _ (fun _ => nofun) (hmoving nofun nofun)
  | readLifecycle =>
    simp only [Stream.advance, hphase, getLifecycle_eq h.readable.consistent]
    refine hquiet _ (.readEvents _) (fun _ => nofun) ?_
    rintro (hend | hend)
    · -- The row that was read is terminal.
      have hany := Phase.readEvents.inj hend
      rw [Option.any_eq_true] at hany
      obtain ⟨row, hrow, hterminal⟩ := hany
      rw [h.workspaceId, h.sessionId] at hrow
      exact ⟨row, hrow, hterminal⟩
    · cases hend
  | readEvents terminal =>
    rw [advance_readEvents h hphase]
    cases hread : ((s.store.ledger.ofSession w n).drop
        (a + (events s.received).length)).take pageLimit with
    | nil =>
      cases terminal with
      | true => exact hquiet _ _ (fun _ => nofun) (fun _ => h.ended (.inl hphase))
      | false => exact hquiet _ _ (fun _ => nofun) (hmoving nofun nofun)
    | cons event page =>
      refine (h.withPhase _ (.yieldEvents (event :: page)) (fun page' hpage' => ?_)
        (hmoving nofun nofun)).withFrames rfl
      rw [← Phase.yieldEvents.inj hpage', ← hread]
      exact List.take_prefix _ _
  | yieldEvents page =>
    cases page with
    | nil =>
      simp only [Stream.advance, hphase]
      exact hquiet _ _ (fun _ => nofun) (hmoving nofun nofun)
    | cons event page =>
      have hpage := h.page _ hphase
      have hseq := ledgerSeq_of_drop h.readable.chained hpage
      obtain ⟨hreceived, hrest⟩ := prefix_concat h.received hpage
      have hevents : events (s.received ++ [.event (eventEnvelope codeVersion event)])
          = events s.received ++ [eventEnvelope codeVersion event] := events_append _ _
      simp only [Stream.advance, hphase]
      exact
        { readable := h.readable
          workspaceId := h.workspaceId
          sessionId := h.sessionId
          origin := h.origin
          received := by
            show events (s.received ++ [_]) <+: _
            rw [hevents]
            exact hreceived
          nextSeq := by
            show event.ledgerSeq + 1 = a + (events (s.received ++ [_])).length + 1
            rw [hevents, hseq, List.length_append, List.length_singleton]
            omega
          page := by
            intro page' hpage'
            show page' <+: List.drop (a + (events (s.received ++ [_])).length) _
            rw [hevents, List.length_append, List.length_singleton, ← Phase.yieldEvents.inj hpage']
            exact hrest
          ended := by
            rintro (hend | hend) <;> cases hend }
  | wait =>
    simp only [Stream.advance, hphase]
    by_cases hwakeup : s.stream.wakeup = true
    · rw [if_pos hwakeup]
      exact hquiet _ _ (fun _ => nofun) (hmoving nofun nofun)
    · rw [if_neg hwakeup]
      exact h.withFrames rfl
  | returned =>
    simp only [Stream.advance, hphase]
    exact h.withFrames rfl
  | raised e =>
    simp only [Stream.advance, hphase]
    exact h.withFrames rfl

/-- The client asks for what follows the events that have arrived. -/
theorem sound_reconnect (h : Sound codeVersion w n a s) (lost : ℕ) {frames : List Frame}
    (hframes : frames = s.received.take (s.received.length - lost)) :
    Sound codeVersion w n a
      { s with
        received := frames
        stream := opened s.stream.workspaceId s.stream.sessionId
          ({ s with received := frames } : World).lastSeq } := by
  have hearlier : events frames <+: events s.received := by
    rw [hframes]
    exact (List.take_prefix _ _).filterMap _
  have hreceived := hearlier.trans h.received
  refine
    { readable := h.readable
      workspaceId := h.workspaceId
      sessionId := h.sessionId
      origin := h.origin
      received := hreceived
      nextSeq := ?_
      page := fun _ hyield => by cases hyield
      ended := by rintro (hend | hend) <;> cases hend }
  show ((events frames).getLast?.map (·.ledgerSeq)).getD s.origin + 1 = _
  -- The last event that has arrived is numbered like the others.
  have hnumbers : (events frames).map (·.ledgerSeq)
      = List.range' (a + 1) (events frames).length := by
    have hall := hearlier.map (·.ledgerSeq)
    rw [h.numbers] at hall
    rw [List.prefix_iff_eq_take.mp hall, List.length_map,
      List.take_range'_of_length_ge hearlier.length_le]
  rw [← List.getLast?_map, hnumbers, h.origin]
  cases hlength : (events frames).length with
  | zero => rfl
  | succ k =>
    rw [List.range'_concat, List.getLast?_concat]
    show a + 1 + 1 * k + 1 = _
    omega

/-- **Step.** -/
theorem Sound.perform (h : Sound codeVersion w n a s) (i : Step) :
    Sound codeVersion w n a (Realtime.perform db parseUuid codeVersion i s).2 := by
  cases i with
  | commit c => exact sound_commit db c h
  | notify envelope =>
    show Sound codeVersion w n a { s with stream := s.stream.notify _ }
    unfold Stream.notify
    split
    · exact h.withPhase true _ h.page h.ended
    · exact h
  | advance => exact sound_advance h
  | heartbeat =>
    show Sound codeVersion w n a
      { s with stream := s.stream.heartbeat.2, received := s.received ++ s.stream.heartbeat.1 }
    unfold Stream.heartbeat
    split
    · exact (h.withPhase _ .clear nofun nofun).withFrames rfl
    · exact h.withFrames rfl
  | fail e =>
    show Sound codeVersion w n a { s with stream := s.stream.fail e }
    unfold Stream.fail
    split
    · exact h.withPhase _ (.raised e) nofun nofun
    · exact h.withPhase _ (.raised e) nofun nofun
    · exact h
  | reconnect lost => exact sound_reconnect h lost rfl

/-- **Runs.** -/
theorem sound_after (db : Database) (parseUuid : String → Option UUID) (codeVersion : String)
    (workspace : UUID → Option UUID) (commits : List Commit) (w n : UUID) (a : ℕ)
    (steps : List Step) :
    Sound codeVersion w n a (after (Realtime.perform db parseUuid codeVersion)
      (connected db workspace commits w n a) steps) :=
  after_invariant (P := fun _ _ => True) (fun _ i h _ => h.perform i)
    (sound_connected db codeVersion workspace commits w n a) (along_of_forall (fun _ _ => trivial) _ _)

/-! ### Returning -/

variable (db parseUuid codeVersion) in
/-- A stream that returns here has ended its session, and its client has all that is committed
    after `a`. -/
def ReturnsAtEnd (w n : UUID) (a : ℕ) (s : World) (i : Step) : Prop :=
  s.stream.phase ≠ .returned →
    (Realtime.perform db parseUuid codeVersion i s).2.stream.phase = .returned →
      Ended s.store w n
        ∧ events s.received
          = ((s.store.ledger.ofSession w n).drop a).map (eventEnvelope codeVersion)

/-- Only a read of an empty page leads to the end. -/
theorem Sound.returnsAtEnd (h : Sound codeVersion w n a s) (i : Step) :
    ReturnsAtEnd db parseUuid codeVersion w n a s i := by
  intro hbefore hafter
  cases i with
  | commit c => exact absurd hafter hbefore
  | notify envelope =>
    have hphase : (s.stream.notify (parseUuid envelope.sessionId)).phase = s.stream.phase := by
      unfold Stream.notify
      split <;> rfl
    exact absurd (hphase.symm.trans hafter) hbefore
  | heartbeat =>
    have hphase : s.stream.heartbeat.2.phase = .returned := hafter
    unfold Stream.heartbeat at hphase
    split at hphase
    · cases hphase
    · exact absurd hphase hbefore
  | fail e =>
    have hphase : (s.stream.fail e).phase = .returned := hafter
    unfold Stream.fail at hphase
    split at hphase
    · cases hphase
    · cases hphase
    · exact absurd hphase hbefore
  | reconnect lost => cases hafter
  | advance =>
    have hreturned : (s.stream.advance codeVersion s.store).2.phase = .returned := hafter
    cases hphase : s.stream.phase with
    | readEvents terminal =>
      rw [advance_readEvents h hphase] at hreturned
      cases hread : ((s.store.ledger.ofSession w n).drop
          (a + (events s.received).length)).take pageLimit with
      | cons event page =>
        simp only [hread] at hreturned
        cases hreturned
      | nil =>
        simp only [hread] at hreturned
        cases terminal with
        | false => cases hreturned
        | true =>
          refine ⟨h.ended (.inl hphase), h.received.eq_of_length ?_⟩
          -- Nothing follows what the client has received.
          have hlength := congrArg List.length hread
          have hle := h.received.length_le
          simp only [List.length_take, List.length_drop, List.length_map, List.length_nil,
            pageLimit] at hlength hle ⊢
          omega
    | clear =>
      simp only [Stream.advance, hphase] at hreturned
      cases hreturned
    | readLifecycle =>
      simp only [Stream.advance, hphase, getLifecycle_eq h.readable.consistent] at hreturned
      cases hreturned
    | yieldEvents page =>
      cases page with
      | nil =>
        simp only [Stream.advance, hphase] at hreturned
        cases hreturned
      | cons event page =>
        simp only [Stream.advance, hphase] at hreturned
        cases hreturned
    | wait =>
      simp only [Stream.advance, hphase] at hreturned
      split at hreturned
      · cases hreturned
      · exact absurd hreturned hbefore
    | returned => exact absurd hphase hbefore
    | raised e =>
      simp only [Stream.advance, hphase] at hreturned
      cases hreturned

/-! ### Waking up -/

/-- The stream clears its wake-up, or a new stream takes its place. -/
def Clears (s : World) : Step → Prop
  | .advance => s.stream.phase = .clear
  | .reconnect _ => True
  | _ => False

theorem wakeup_advance {stream : Stream} {store : Store} (hphase : stream.phase ≠ .clear) :
    (stream.advance codeVersion store).2.wakeup = stream.wakeup := by
  cases hcase : stream.phase with
  | clear => exact absurd hcase hphase
  | readLifecycle =>
    simp only [Stream.advance, hcase]
    split <;> rfl
  | readEvents terminal =>
    simp only [Stream.advance, hcase]
    split <;> rfl
  | yieldEvents page => cases page <;> simp only [Stream.advance, hcase]
  | wait =>
    simp only [Stream.advance, hcase]
    split <;> rfl
  | returned => simp only [Stream.advance, hcase]
  | raised e => simp only [Stream.advance, hcase]

/-- A pending wake-up stays pending until the stream clears it. -/
theorem wakeup_kept {i : Step} (hclears : ¬ Clears s i) (hwakeup : s.stream.wakeup = true) :
    (Realtime.perform db parseUuid codeVersion i s).2.stream.wakeup = true := by
  cases i with
  | commit c => exact hwakeup
  | notify envelope =>
    show (s.stream.notify _).wakeup = true
    unfold Stream.notify
    split
    · rfl
    · exact hwakeup
  | advance => exact (wakeup_advance hclears).trans hwakeup
  | heartbeat =>
    show s.stream.heartbeat.2.wakeup = true
    unfold Stream.heartbeat
    split <;> exact hwakeup
  | fail e =>
    show (s.stream.fail e).wakeup = true
    unfold Stream.fail
    split <;> exact hwakeup
  | reconnect lost => exact absurd trivial hclears

/-- A notification stays pending until the stream clears its wake-up to read again. -/
theorem notified (envelope : EventEnvelope) (hlive : s.stream.isLive = true)
    (hsession : parseUuid envelope.sessionId = some s.stream.sessionId) {rest : List Step}
    (hrest : Along (Realtime.perform db parseUuid codeVersion) (fun s i => ¬ Clears s i)
      (Realtime.perform db parseUuid codeVersion (.notify envelope) s).2 rest) :
    (after (Realtime.perform db parseUuid codeVersion)
      (Realtime.perform db parseUuid codeVersion (.notify envelope) s).2 rest).stream.wakeup = true := by
  have hset : (s.stream.notify (parseUuid envelope.sessionId)).wakeup = true := by
    unfold Stream.notify
    rw [if_pos ⟨hsession, hlive⟩]
  have hkept : ∀ s i, (fun s : World => s.stream.wakeup = true) s → ¬ Clears s i →
      (fun s : World => s.stream.wakeup = true) (Realtime.perform db parseUuid codeVersion i s).2 :=
    fun s i h hclears => wakeup_kept hclears h
  exact after_invariant hkept hset hrest

/-! ### Reading again -/

/-- Steps without a failing read and without another connection. -/
def Step.isUndisturbed : Step → Bool
  | .fail _ | .reconnect _ => false
  | _ => true

/-- Steps of the stream itself. -/
def Step.isOwn : Step → Bool
  | .advance => true
  | _ => false

/-- What wakes up a stream that waits. -/
def Resumes (s : World) : Step → Prop
  | .heartbeat => True
  | .advance => s.stream.wakeup = true
  | _ => False

/-- A stream that yields event `k` within `m` steps of its own: every event takes a step, and every
    page four more. -/
def Approaches (k m : ℕ) (stream : Stream) : Prop :=
  k < stream.nextSeq ∨
    match stream.phase with
    | .clear => 5 * (k + 1 - stream.nextSeq) ≤ m
    | .readLifecycle => 5 * (k + 1 - stream.nextSeq) ≤ m + 1
    | .readEvents _ => 5 * (k + 1 - stream.nextSeq) ≤ m + 2
    | .yieldEvents [] => 5 * (k + 1 - stream.nextSeq) + 1 ≤ m
    | .yieldEvents (_ :: _) => 5 * (k + 1 - stream.nextSeq) ≤ m + 3
    | .wait | .returned | .raised _ => False

theorem Approaches.lt {k : ℕ} {stream : Stream} (h : Approaches k 0 stream) : k < stream.nextSeq := by
  rcases h with h | h
  · exact h
  · by_contra hle
    split at h <;> omega

/-- The events of the session after a step. -/
theorem ofSession_prefix_perform (i : Step) (s : World) :
    s.store.ledger.ofSession w n
      <+: (Realtime.perform db parseUuid codeVersion i s).2.store.ledger.ofSession w n := by
  cases i with
  | commit c => exact ofSession_prefix_commit db c s.store w n
  | _ => exact List.prefix_rfl

theorem nextSeq_le_advance (h : Sound codeVersion w n a s) :
    s.stream.nextSeq ≤ (s.stream.advance codeVersion s.store).2.nextSeq := by
  have hafter := (sound_advance h).nextSeq
  rw [h.nextSeq]
  rw [events_append, List.length_append] at hafter
  have hcurrent : (s.stream.advance codeVersion s.store).2.nextSeq
      = a + ((events s.received).length
        + (events (s.stream.advance codeVersion s.store).1).length) + 1 := hafter
  omega

/-- Every step of its own brings the stream nearer. -/
theorem approaches_advance (h : Sound codeVersion w n a s) {k m : ℕ}
    (hk : k ≤ (s.store.ledger.ofSession w n).length) (happroaches : Approaches k (m + 1) s.stream) :
    Approaches k m (s.stream.advance codeVersion s.store).2 := by
  rcases happroaches with hlt | hphase
  · exact .inl (hlt.trans_le (nextSeq_le_advance h))
  by_cases hlt : k < s.stream.nextSeq
  · exact .inl (hlt.trans_le (nextSeq_le_advance h))
  right
  cases hcase : s.stream.phase with
  | clear =>
    simp only [hcase] at hphase
    simp only [Stream.advance, hcase]
    omega
  | readLifecycle =>
    simp only [hcase] at hphase
    simp only [Stream.advance, hcase, getLifecycle_eq h.readable.consistent]
    omega
  | readEvents terminal =>
    simp only [hcase] at hphase
    rw [advance_readEvents h hcase]
    -- The page is not empty: event `k` is unread.
    have hnext := h.nextSeq
    cases hread : ((s.store.ledger.ofSession w n).drop
        (a + (events s.received).length)).take pageLimit with
    | nil =>
      have hlength := congrArg List.length hread
      simp only [List.length_take, List.length_drop, List.length_nil, pageLimit] at hlength
      omega
    | cons event page =>
      show 5 * (k + 1 - s.stream.nextSeq) ≤ m + 3
      omega
  | yieldEvents page =>
    cases page with
    | nil =>
      simp only [hcase] at hphase
      simp only [Stream.advance, hcase]
      omega
    | cons event page =>
      simp only [hcase] at hphase
      have hseq := ledgerSeq_of_drop h.readable.chained (h.page _ hcase)
      have hnext := h.nextSeq
      simp only [Stream.advance, hcase]
      cases page with
      | nil =>
        show 5 * (k + 1 - (event.ledgerSeq + 1)) + 1 ≤ m
        omega
      | cons event' page =>
        show 5 * (k + 1 - (event.ledgerSeq + 1)) ≤ m + 3
        omega
  | wait =>
    simp only [hcase] at hphase
  | returned =>
    simp only [hcase] at hphase
  | raised e =>
    simp only [hcase] at hphase

/-- The steps of the others leave the stream where it is. -/
theorem approaches_other {k m : ℕ} {i : Step} (hundisturbed : i.isUndisturbed = true)
    (hother : i.isOwn = false) (h : Approaches k m s.stream) :
    Approaches k m (Realtime.perform db parseUuid codeVersion i s).2.stream := by
  cases i with
  | commit c => exact h
  | notify envelope =>
    show Approaches k m (s.stream.notify _)
    unfold Stream.notify
    split
    · exact h
    · exact h
  | advance => cases hother
  | heartbeat =>
    show Approaches k m s.stream.heartbeat.2
    unfold Stream.heartbeat
    split
    · rename_i hwait
      rcases h with h | h
      · exact .inl h
      · simp only [hwait] at h
    · exact h
  | fail e => cases hundisturbed
  | reconnect lost => cases hundisturbed

/-- **Progress.**  With enough steps of its own the stream passes event `k`, whatever else happens. -/
theorem nextSeq_after {k : ℕ} {rest : List Step} (h : Sound codeVersion w n a s)
    (hk : k ≤ (s.store.ledger.ofSession w n).length)
    (hrest : ∀ i ∈ rest, i.isUndisturbed = true)
    (happroaches : Approaches k (rest.countP Step.isOwn) s.stream) :
    k < (after (Realtime.perform db parseUuid codeVersion) s rest).stream.nextSeq := by
  induction rest generalizing s with
  | nil => exact happroaches.lt
  | cons i rest ih =>
    obtain ⟨hfirst, hrest⟩ := List.forall_mem_cons.mp hrest
    rw [after_cons]
    have hprefix : _ <+: (Realtime.perform db parseUuid codeVersion i s).2.store.ledger.ofSession w n :=
      ofSession_prefix_perform i s
    apply ih (h.perform i) (hk.trans hprefix.length_le) hrest
    by_cases hown : i.isOwn = true
    · obtain rfl : i = .advance := by
        cases i with
        | advance => rfl
        | _ => cases hown
      rw [List.countP_cons_of_pos rfl] at happroaches
      exact approaches_advance h hk happroaches
    · rw [List.countP_cons_of_neg hown] at happroaches
      exact approaches_other hfirst (Bool.not_eq_true _ ▸ hown) happroaches

theorem ofSession_prefix_after (s : World) (steps : List Step) :
    s.store.ledger.ofSession w n
      <+: (after (Realtime.perform db parseUuid codeVersion) s steps).store.ledger.ofSession w n := by
  induction steps generalizing s with
  | nil => exact List.prefix_rfl
  | cons i steps ih => exact (ofSession_prefix_perform i s).trans (ih _)

/-- What a stream has passed is received. -/
theorem Sound.mem_received (h : Sound codeVersion w n a s) {event : LedgerEvent}
    (hevent : event ∈ s.store.ledger.ofSession w n) (hlow : a < event.ledgerSeq)
    (hhigh : event.ledgerSeq < s.stream.nextSeq) :
    eventEnvelope codeVersion event ∈ events s.received := by
  obtain ⟨j, hj, rfl⟩ := List.getElem_of_mem hevent
  have hnumber := (h.readable.chained.chain w n).number_getElem hj
  have hnext := h.nextSeq
  have hlt : j - a < (events s.received).length := by omega
  obtain ⟨tail, htail⟩ := h.received
  have hat := congrArg (·[j - a]?) htail
  simp only [List.getElem?_append_left hlt, List.getElem?_map, List.getElem?_drop] at hat
  rw [show a + (j - a) = j by omega, List.getElem?_eq_getElem hj, Option.map_some] at hat
  exact List.mem_of_getElem? hat

/-- **Rereading.**  What is unread when a stream waits is yielded after it resumes. -/
theorem Sound.reread (h : Sound codeVersion w n a s) (hwait : s.stream.phase = .wait)
    {event : LedgerEvent} (hevent : event ∈ s.store.ledger.ofSession w n)
    (hunread : s.stream.nextSeq ≤ event.ledgerSeq) {i : Step} (hresumes : Resumes s i)
    {rest : List Step} (hrest : ∀ j ∈ rest, j.isUndisturbed = true)
    (hsteps : 5 * (event.ledgerSeq + 1 - s.stream.nextSeq) ≤ rest.countP Step.isOwn) :
    eventEnvelope codeVersion event
      ∈ events (after (Realtime.perform db parseUuid codeVersion) s (i :: rest)).received := by
  have hresumed : (Realtime.perform db parseUuid codeVersion i s).2.stream.phase = .clear
      ∧ (Realtime.perform db parseUuid codeVersion i s).2.stream.nextSeq = s.stream.nextSeq := by
    cases i with
    | heartbeat =>
      show s.stream.heartbeat.2.phase = _ ∧ s.stream.heartbeat.2.nextSeq = _
      simp only [Stream.heartbeat, hwait, and_self]
    | advance =>
      show (s.stream.advance codeVersion s.store).2.phase = _
        ∧ (s.stream.advance codeVersion s.store).2.nextSeq = _
      have hwakeup : s.stream.wakeup = true := hresumes
      simp only [Stream.advance, hwait]
      rw [if_pos hwakeup]
      exact ⟨rfl, rfl⟩
    | commit c => cases hresumes
    | notify envelope => cases hresumes
    | fail e => cases hresumes
    | reconnect lost => cases hresumes
  have hlast : event.ledgerSeq ≤ (s.store.ledger.ofSession w n).length := by
    obtain ⟨j, hj, rfl⟩ := List.getElem_of_mem hevent
    have hnumber := (h.readable.chained.chain w n).number_getElem hj
    omega
  have hnext := h.nextSeq
  have hpassed : event.ledgerSeq
      < (after (Realtime.perform db parseUuid codeVersion) s (i :: rest)).stream.nextSeq := by
    rw [after_cons]
    have hprefix : _ <+: (Realtime.perform db parseUuid codeVersion i s).2.store.ledger.ofSession w n :=
      ofSession_prefix_perform i s
    apply nextSeq_after (h.perform i) (hlast.trans hprefix.length_le) hrest
    right
    rw [hresumed.1, hresumed.2]
    exact hsteps
  have hsound : Sound codeVersion w n a
      (after (Realtime.perform db parseUuid codeVersion) s (i :: rest)) :=
    after_invariant (P := fun _ _ => True) (fun _ i h _ => h.perform i) h
      (along_of_forall (fun _ _ => trivial) _ _)
  exact hsound.mem_received ((ofSession_prefix_after s (i :: rest)).subset hevent) (by omega) hpassed

end Invariant

/-- **The stream has no gaps.**  In every run from a first connection for the events after `origin`:
    the client has received these events, from the first on, once each and in order, over all its
    connections; a stream returns only at the end of its session, with nothing left that is
    committed; a notification stays pending until the stream reads again; and what is unread when
    the stream waits is received when it resumes, by a timeout or by a pending notification. -/
theorem stream_gapless (db : Database) (parseUuid : String → Option UUID) (codeVersion : String)
    (workspace : UUID → Option UUID) (commits : List Commit) (w n : UUID) (origin : ℕ)
    (steps : List Step) :
    let start := connected db workspace commits w n origin
    let s := after (perform db parseUuid codeVersion) start steps
    ((events s.received).map (·.ledgerSeq)
          = List.range' (origin + 1) (events s.received).length
        ∧ events s.received
          <+: ((s.store.ledger.ofSession w n).drop origin).map (eventEnvelope codeVersion))
      ∧ Along (perform db parseUuid codeVersion)
        (ReturnsAtEnd db parseUuid codeVersion w n origin) start steps
      ∧ (∀ envelope rest, s.stream.isLive = true → parseUuid envelope.sessionId = some n →
        Along (perform db parseUuid codeVersion) (fun s i => ¬ Clears s i)
          (perform db parseUuid codeVersion (.notify envelope) s).2 rest →
        (after (perform db parseUuid codeVersion)
          (perform db parseUuid codeVersion (.notify envelope) s).2 rest).stream.wakeup = true)
      ∧ ∀ event ∈ s.store.ledger.ofSession w n, s.stream.phase = .wait →
        s.stream.nextSeq ≤ event.ledgerSeq → ∀ i rest, Resumes s i →
        (∀ j ∈ rest, j.isUndisturbed = true) →
        5 * (event.ledgerSeq + 1 - s.stream.nextSeq) ≤ rest.countP Step.isOwn →
        eventEnvelope codeVersion event
          ∈ events (after (perform db parseUuid codeVersion) s (i :: rest)).received := by
  intro start s
  have hsound : Sound codeVersion w n origin s :=
    sound_after db parseUuid codeVersion workspace commits w n origin steps
  refine ⟨⟨hsound.numbers, hsound.received⟩, ?_, ?_, ?_⟩
  · rw [along_iff_forall]
    intro earlier i later _
    exact (sound_after db parseUuid codeVersion workspace commits w n origin earlier).returnsAtEnd i
  · intro envelope rest hlive hsession hrest
    exact notified envelope hlive (hsession.trans (congrArg some hsound.sessionId.symm)) hrest
  · intro event hevent hwait hunread i rest hresumes hrest hsteps
    exact hsound.reread hwait hevent hunread hresumes hrest hsteps

end Agora.Realtime
