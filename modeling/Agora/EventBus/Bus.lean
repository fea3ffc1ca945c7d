import Agora.Lib.Python
import Agora.Lib.Runs
import Mathlib.Data.List.Dedup
import Mathlib.Data.List.Infix
import Mathlib.Data.List.Sort
import Mathlib.Data.String.Basic

namespace Agora.EventBus

/-!
# The event bus in memory

`publish` stores an event and selects its handlers, and `subscribe` registers a handler and selects its
backlog, each in one step: nothing is awaited while the lock is held.  The handlers are called afterwards,
one after another, and everything else may happen in between.  A handler that raises ends the call.
-/

/-! ### Subject patterns

`fnmatchcase`: `*` is any text, `?` any character, `[…]` one of the characters and ranges in the brackets
and `[!…]` any other one.  Everything else stands for itself, an open bracket that is not closed too. -/

/-- A piece of a pattern. -/
inductive Glob where
  | star
  | any
  | oneOf (isNegated : Bool) (ranges : List (Char × Char))
deriving DecidableEq

/-- The characters of a bracket up to the one that closes it, and the rest.  A closing bracket in the first
    place does not close it. -/
def closing : List Char → Option (List Char × List Char)
  | [] => none
  | ']' :: rest => some ([], rest)
  | c :: rest => (closing rest).map fun (inside, rest) => (c :: inside, rest)

/-- The bracket that opens here. -/
def bracket : List Char → Option (List Char × List Char)
  | '!' :: ']' :: rest => (closing rest).map fun (inside, rest) => ('!' :: ']' :: inside, rest)
  | '!' :: rest => (closing rest).map fun (inside, rest) => ('!' :: inside, rest)
  | ']' :: rest => (closing rest).map fun (inside, rest) => (']' :: inside, rest)
  | rest => closing rest

/-- The ranges of a bracket; a character is a range of its own. -/
def ranges : List Char → List (Char × Char)
  | a :: '-' :: b :: rest => (a, b) :: ranges rest
  | a :: rest => (a, a) :: ranges rest
  | [] => []

def oneOf : List Char → Glob
  | '!' :: inside => .oneOf true (ranges inside)
  | inside => .oneOf false (ranges inside)

/-- The pieces of a pattern.  Every piece takes a character at least. -/
def globs : ℕ → List Char → List Glob
  | _, [] => []
  | 0, _ => []
  | fuel + 1, '*' :: rest => .star :: globs fuel rest
  | fuel + 1, '?' :: rest => .any :: globs fuel rest
  | fuel + 1, '[' :: rest =>
    match bracket rest with
    | none => .oneOf false [('[', '[')] :: globs fuel rest
    | some (inside, rest) => oneOf inside :: globs fuel rest
  | fuel + 1, c :: rest => .oneOf false [(c, c)] :: globs fuel rest

def accepts : List Glob → List Char → Bool
  | [], text => text.isEmpty
  | .star :: pieces, text => text.tails.any (accepts pieces)
  | .any :: pieces, text =>
    match text with
    | [] => false
    | _ :: text => accepts pieces text
  | .oneOf isNegated ranges :: pieces, text =>
    match text with
    | [] => false
    | c :: text =>
      (ranges.any fun (low, high) => low ≤ c ∧ c ≤ high) != isNegated && accepts pieces text

def fnmatchcase (name pattern : List Char) : Bool := accepts (globs pattern.length pattern) name

example : fnmatchcase "a.b.c".toList "a.*".toList = true := by decide

example : fnmatchcase "a.b".toList "a.[!a-c]".toList = false := by decide

variable {B H : Type}

/-! ### Values -/

/-- An event: the number that the bus gives it, and everything else. -/
structure EventEnvelope (B : Type) where
  ledgerSeq : ℕ
  body : B
deriving DecidableEq

/-- `_handlers[(pattern, group)]`. -/
structure HandlerEntry (H : Type) where
  pattern : String
  group : String
  members : List (String × H)

def HandlerEntry.key (entry : HandlerEntry H) : String × String := (entry.pattern, entry.group)

structure Subscription where
  subscriptionId : String
  subject : String
  group : String

/-- A handler that is to be called: the code keeps the handler only. -/
structure Target (H : Type) where
  pattern : String
  group : String
  subscriptionId : String
  handler : H
deriving DecidableEq

structure Delivery (B H : Type) where
  target : Target H
  subject : String
  event : EventEnvelope B
deriving DecidableEq

/-- What a call of `publish` or `subscribe` has delivered and has still to deliver, and whether a handler
    has raised. -/
structure BusTask (B H : Type) where
  delivered : List (Delivery B H)
  waiting : List (Delivery B H)
  raised : Bool

structure BusState (B H : Type) where
  subjects : String → List (EventEnvelope B)
  sequences : String → ℕ
  handlers : List (HandlerEntry H)
  roundRobin : String × String → ℕ
  subscriptions : List Subscription
  tasks : List (BusTask B H)

/-- `fnmatchcase(subject, pattern.replace(">", "*"))`. -/
def isMatch (subject pattern : String) : Bool :=
  fnmatchcase subject.toList (pattern.toList.map fun c => if c = '>' then '*' else c)

/-! ### Selection -/

/-- The entries whose pattern matches. -/
def matching (handlers : List (HandlerEntry H)) (subject : String) : List (HandlerEntry H) :=
  handlers.filter fun entry => isMatch subject entry.pattern

def HandlerEntry.targets (entry : HandlerEntry H) : List (Target H) :=
  entry.members.map fun (subscriptionId, handler) =>
    { pattern := entry.pattern, group := entry.group, subscriptionId, handler }

/-- The members of a group, over all of its patterns that match. -/
def membersOf (handlers : List (HandlerEntry H)) (subject group : String) : List (Target H) :=
  ((matching handlers subject).filter (·.group = group)).flatMap (·.targets)

/-- `sorted({key[1] for key in matching})`. -/
def groupsOf (handlers : List (HandlerEntry H)) (subject : String) : List String :=
  ((matching handlers subject).map (·.group)).dedup.insertionSort (· ≤ ·)

namespace BusState

variable (s : BusState B H)

/-- The member of a group whose turn it is. -/
def turn (subject group : String) : Option (Target H) :=
  let members := membersOf s.handlers subject group
  members[s.roundRobin (subject, group) % members.length]?

/-- `_select_deliveries`. -/
def selectDeliveries (subject : String) : List (Target H) :=
  (groupsOf s.handlers subject).filterMap (s.turn subject)

/-- The turns after a selection. -/
def turned (subject : String) : String × String → ℕ := fun key =>
  let members := membersOf s.handlers subject key.2
  if key.1 = subject ∧ key.2 ∈ groupsOf s.handlers subject ∧ members ≠ [] then
    s.roundRobin key % members.length + 1
  else s.roundRobin key

/-! ### Calls -/

/-- The event as it is stored. -/
def stored (subject : String) (event : EventEnvelope B) : EventEnvelope B :=
  { event with ledgerSeq := s.sequences subject + 1 }

/-- What `publish` is going to deliver. -/
def publishPlan (subject : String) (event : EventEnvelope B) : List (Delivery B H) :=
  (s.selectDeliveries subject).map fun target => ⟨target, subject, s.stored subject event⟩

def publish (subject : String) (event : EventEnvelope B) : BusState B H :=
  { s with
    subjects := fun k => if k = subject then s.subjects k ++ [s.stored subject event] else s.subjects k
    sequences := fun k => if k = subject then s.sequences k + 1 else s.sequences k
    roundRobin := s.turned subject
    tasks := s.tasks ++ [⟨[], s.publishPlan subject event, false⟩] }

/-- What `subscribe` is going to deliver: the events of the subject with this name. -/
def backlog (subscriptionId subject group : String) (handler : H) (fromStart : Bool) :
    List (Delivery B H) :=
  if fromStart then
    (s.subjects subject).map fun event =>
      ⟨{ pattern := subject, group, subscriptionId, handler }, subject, event⟩
  else []

/-- `_handlers[key].append(member)`. -/
def register (handlers : List (HandlerEntry H)) (subscriptionId subject group : String) (handler : H) :
    List (HandlerEntry H) :=
  let old := (handlers.find? (·.key = (subject, group))).elim [] (·.members)
  keyedSet HandlerEntry.key handlers ⟨subject, group, old ++ [(subscriptionId, handler)]⟩

def subscribe (subscriptionId subject group : String) (handler : H) (fromStart : Bool) : BusState B H :=
  { s with
    subscriptions := keyedSet Subscription.subscriptionId s.subscriptions ⟨subscriptionId, subject, group⟩
    handlers := register s.handlers subscriptionId subject group handler
    tasks := s.tasks ++ [⟨[], s.backlog subscriptionId subject group handler fromStart, false⟩] }

/-- A key without members is deleted. -/
def unregister (handlers : List (HandlerEntry H)) (subscription : Subscription) :
    List (HandlerEntry H) :=
  (handlers.map fun entry =>
      if entry.key = (subscription.subject, subscription.group) then
        { entry with members := entry.members.filter (·.1 ≠ subscription.subscriptionId) }
      else entry).filter
    fun entry => entry.key ≠ (subscription.subject, subscription.group) ∨ ¬ entry.members.isEmpty

def unsubscribe (subscriptionId : String) : BusState B H :=
  match s.subscriptions.find? (·.subscriptionId = subscriptionId) with
  | none => s
  | some subscription =>
    { s with
      subscriptions := s.subscriptions.filter (·.subscriptionId ≠ subscriptionId)
      handlers := unregister s.handlers subscription }

end BusState

/-- `_invoke`: the next handler is called, and it may raise. -/
def BusTask.invoke (raises : Bool) (task : BusTask B H) : BusTask B H :=
  if task.raised then task
  else match task.waiting with
    | [] => task
    | d :: rest => ⟨task.delivered ++ [d], rest, raises⟩

/-- What may happen next. -/
inductive BusStep (B H : Type) where
  | publish (subject : String) (event : EventEnvelope B)
  | subscribe (subscriptionId subject group : String) (handler : H) (fromStart : Bool)
  | unsubscribe (subscriptionId : String)
  | invoke (task : ℕ) (raises : Bool)

/-- A step.  `publish` and `subscribe` start a task, which has the next number. -/
def perform (step : BusStep B H) (s : BusState B H) : Unit × BusState B H :=
  ((), match step with
    | .publish subject event => s.publish subject event
    | .subscribe subscriptionId subject group handler fromStart =>
      s.subscribe subscriptionId subject group handler fromStart
    | .unsubscribe subscriptionId => s.unsubscribe subscriptionId
    | .invoke task raises => { s with tasks := s.tasks.modify task (·.invoke raises) })

def BusState.empty : BusState B H where
  subjects _ := []
  sequences _ := 0
  handlers := []
  roundRobin _ := 0
  subscriptions := []
  tasks := []

end Agora.EventBus
