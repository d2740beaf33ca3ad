import AskLens.PublicErrors
import AskLens.Planning.Schemas
import AskLens.Django.Transactions

/-!
# Observability

Trusted lifecycle observations are delivered to a host sink after every open
transaction has committed. The barrier counts one commit callback for each
connection with an open atomic block; a rollback loses a callback, so that the
count never reaches zero and the batch is dropped.
-/
namespace AskLens.Observability

open Django Planning

/-! ## Events -/

inductive EventName where
  | planAccepted | planRejected | executionSucceeded | executionFailed
deriving DecidableEq, Repr

def EventName.text : EventName → String
  | .planAccepted => "asklens.plan.accepted"
  | .planRejected => "asklens.plan.rejected"
  | .executionSucceeded => "asklens.execution.succeeded"
  | .executionFailed => "asklens.execution.failed"

inductive Status where
  | accepted | rejected | succeeded | failed
deriving DecidableEq, Repr

/-- `_EVENT_STATUSES`. -/
def EventName.status : EventName → Status
  | .planAccepted => .accepted
  | .planRejected => .rejected
  | .executionSucceeded => .succeeded
  | .executionFailed => .failed

/-- The arguments of `ObservabilityEvent`. -/
structure EventFields where
  name : EventName
  status : Status
  resource : Option String
  intent : Option Intent
  errorCode : Option AskLensErrorCode
  durationMs : ℤ
  resultCount : Option ℤ
  truncated : Option Bool
deriving DecidableEq, Repr

def EventFields.isFailure (e : EventFields) : Bool := e.status = .rejected || e.status = .failed

/-- `__post_init__` raises no `ValueError`. -/
def EventFields.postInit (e : EventFields) : Bool :=
  e.status = e.name.status && 0 ≤ e.durationMs &&
    (if e.name = .planRejected then e.resource.isNone && e.intent.isNone
      else e.resource.any (· ≠ "") && e.intent.isSome) &&
    (e.isFailure == e.errorCode.isSome) &&
    (if e.name = .executionSucceeded then e.resultCount.any (0 ≤ ·) && e.truncated.isSome
      else e.resultCount.isNone && e.truncated.isNone)

structure ObservabilityEvent extends EventFields where
  valid : toEventFields.postInit = true

def buildObservabilityEvent (e : EventFields) : Option ObservabilityEvent :=
  if h : e.postInit = true then some ⟨e, h⟩ else none

theorem buildObservabilityEvent_eq_some {e : EventFields} (h : e.postInit = true) :
    buildObservabilityEvent e = some ⟨e, h⟩ :=
  dif_pos h

/-! ## The barrier -/

section Barrier

variable {A : Type} [DecidableEq A]

/-- A wrapper of `connections.all(initialized_only=True)`, as far as the barrier looks. -/
inductive ConnectionState where
  /-- `connection.connection is None`. -/
  | unopened
  | autocommit
  /-- An open atomic block with these `savepoint_ids`. -/
  | atomic (savepointIds : List ℕ)
  /-- Autocommit is off and no atomic block is open. -/
  | manual
  /-- Reading the state raises. -/
  | unreadable
deriving DecidableEq, Repr

structure Connections (A : Type) where
  states : List (A × ConnectionState)
  aliases_nodup : (states.map Prod.fst).Nodup

/-- The loop over the connections: `none` where it returns or raises, else the connections with
an open atomic block. -/
def activeConnections : List (A × ConnectionState) → Option (List (Hook A))
  | [] => some []
  | (_, .unopened) :: rest | (_, .autocommit) :: rest => activeConnections rest
  | (a, .atomic sids) :: rest => (activeConnections rest).map (⟨a, sids⟩ :: ·)
  | (_, .manual) :: _ | (_, .unreadable) :: _ => none

/-- What `transaction.on_commit` does; one that raises may have stored its callback before. -/
inductive Registration where
  | registered
  | raised (stored : Bool)
deriving DecidableEq, Repr

/-- The closure state of `_after_open_transactions` over the deliveries so far. -/
structure Barrier (B : Type) where
  remaining : ℤ
  cancelled : Bool
  deliveries : List B

variable {B : Type}

def connectionCommitted (batch : B) (b : Barrier B) : Barrier B where
  remaining := b.remaining - 1
  cancelled := b.cancelled
  deliveries :=
    if b.remaining - 1 = 0 ∧ b.cancelled = false then b.deliveries ++ [batch] else b.deliveries

/-- The registration loop with its `except` clause. -/
def registerHooks (register : A → Registration) (s : OnCommit A (Barrier B)) :
    List (Hook A) → OnCommit A (Barrier B)
  | [] => s
  | h :: hooks =>
    match register h.connectionAlias with
    | .registered => registerHooks register { s with pending := s.pending ++ [h] } hooks
    | .raised stored =>
      { pending := s.pending ++ (if stored then [h] else [])
        state := { s.state with cancelled := true } }

/-- `_after_open_transactions` where the callback delivers `batch`. -/
def afterOpenTransactions (connections : Connections A) (register : A → Registration) (batch : B) :
    OnCommit A (Barrier B) :=
  match activeConnections connections.states with
  | none => ⟨[], 0, false, []⟩
  | some [] => ⟨[], 0, false, [batch]⟩
  | some (h :: hooks) =>
    registerHooks register ⟨[], (h :: hooks).length, false, []⟩ (h :: hooks)

/-- The deliveries after the transactions went on with these commits and rollbacks. -/
def deliveriesAfter (connections : Connections A) (register : A → Registration) (batch : B)
    (events : List (TransactionEvent A)) : List B :=
  ((afterOpenTransactions connections register batch).run
    (connectionCommitted batch) events).state.deliveries

def openBlock : A × ConnectionState → Option (Hook A)
  | (a, .atomic sids) => some ⟨a, sids⟩
  | _ => none

def Connections.openBlocks (connections : Connections A) : List (Hook A) :=
  connections.states.filterMap openBlock

/-- Django offers a commit hook for the transaction of the connection, if it has one. -/
def ConnectionState.hookable : ConnectionState → Bool
  | .manual | .unreadable => false
  | _ => true

def Connections.hookable (connections : Connections A) : Bool :=
  connections.states.all fun c => c.2.hookable

omit [DecidableEq A] in
theorem activeConnections_eq (states : List (A × ConnectionState)) :
    activeConnections states =
      if states.all fun c => c.2.hookable then some (states.filterMap openBlock) else none := by
  induction states with
  | nil => rfl
  | cons c states ih =>
    obtain ⟨a, state⟩ := c
    cases state with
    | unopened => exact ih
    | autocommit => exact ih
    | manual => rfl
    | unreadable => rfl
    | atomic sids =>
      have hall : ((a, ConnectionState.atomic sids) :: states).all (fun c => c.2.hookable) =
          states.all fun c => c.2.hookable := rfl
      rw [activeConnections, ih, hall]
      split_ifs
      · rfl
      · rfl

/-- `k` callbacks deliver once when they are enough to bring the count to zero. -/
theorem connectionCommitted_iterate (batch : B) (n k : ℕ) (cancelled : Bool) :
    (connectionCommitted batch)^[k] ⟨n, cancelled, []⟩ =
      ⟨n - k, cancelled, if 0 < n ∧ n ≤ k ∧ cancelled = false then [batch] else []⟩ := by
  induction k with
  | zero =>
    have hn : ¬ (0 < n ∧ n ≤ 0 ∧ cancelled = false) := by omega
    rw [if_neg hn, Function.iterate_zero_apply, Nat.cast_zero, sub_zero]
  | succ k ih =>
    rw [Function.iterate_succ_apply', ih]
    unfold connectionCommitted
    congr 1
    · push_cast
      omega
    · by_cases hlast : n = k + 1
      · subst hlast
        have hcount : ((k + 1 : ℕ) : ℤ) - (k : ℤ) - 1 = 0 := by push_cast; omega
        have hbefore : ¬ k + 1 ≤ k := by omega
        simp only [hcount, hbefore, true_and, false_and, and_false, if_false, List.nil_append,
          Nat.succ_pos, le_refl]
      · have hcount : ¬ ((n : ℤ) - (k : ℤ) - 1 = 0) := by omega
        have hbound : n ≤ k ↔ n ≤ k + 1 := by omega
        simp only [hcount, false_and, if_false, hbound]

omit [DecidableEq A] in
/-- The loop registers every hook, or stops at the first one that raises and cancels. -/
theorem registerHooks_eq (register : A → Registration) (hooks : List (Hook A))
    (s : OnCommit A (Barrier B)) :
    (∀ h ∈ hooks, register h.connectionAlias = .registered) ∧
        registerHooks register s hooks = { s with pending := s.pending ++ hooks } ∨
      (∃ h ∈ hooks, register h.connectionAlias ≠ .registered) ∧
        (registerHooks register s hooks).state = { s.state with cancelled := true } := by
  induction hooks generalizing s with
  | nil =>
    left
    simp [registerHooks]
  | cons h hooks ih =>
    cases hr : register h.connectionAlias with
    | raised stored =>
      right
      refine ⟨⟨h, by simp, by simp [hr]⟩, ?_⟩
      simp only [registerHooks, hr]
    | registered =>
      rcases ih { s with pending := s.pending ++ [h] } with ⟨hall, heq⟩ | ⟨⟨h', hmem, hne⟩, heq⟩
      · left
        refine ⟨List.forall_mem_cons.mpr ⟨hr, hall⟩, ?_⟩
        simp only [registerHooks, hr, heq, List.append_assoc, List.singleton_append]
      · right
        refine ⟨⟨h', List.mem_cons_of_mem h hmem, hne⟩, ?_⟩
        simp only [registerHooks, hr, heq]

theorem countP_committed_eq_length_iff {hooks : List (Hook A)}
    {events : List (TransactionEvent A)} :
    hooks.length ≤ hooks.countP (fun h => h.outcome events = some .committed) ↔
      ∀ h ∈ hooks, h.outcome events = some .committed := by
  have hle : hooks.countP (fun h => h.outcome events = some .committed) ≤ hooks.length :=
    List.countP_le_length
  constructor
  · intro h
    simpa using List.countP_eq_length.mp (le_antisymm hle h)
  · intro h
    exact (List.countP_eq_length.mpr (by simpa using h)).ge

/-- The batch is delivered, and once, exactly when every open block has committed. -/
theorem deliveriesAfter_eq (connections : Connections A) (register : A → Registration) (batch : B)
    (events : List (TransactionEvent A)) :
    deliveriesAfter connections register batch events =
      if connections.hookable = true ∧ ∀ h ∈ connections.openBlocks,
          register h.connectionAlias = .registered ∧ h.outcome events = some .committed
        then [batch] else [] := by
  unfold deliveriesAfter Connections.hookable Connections.openBlocks
  rw [OnCommit.state_run, afterOpenTransactions, activeConnections_eq]
  cases hhook : connections.states.all fun c => c.2.hookable with
  | false => simp
  | true =>
    simp only [if_true, true_and]
    cases hblocks : connections.states.filterMap openBlock with
    | nil => simp
    | cons h hooks =>
      dsimp only
      rcases registerHooks_eq register (h :: hooks)
        (⟨[], (h :: hooks).length, false, []⟩ : OnCommit A (Barrier B)) with
        ⟨hall, heq⟩ | ⟨⟨h', hmem, hne⟩, heq⟩
      · rw [heq, List.nil_append, connectionCommitted_iterate]
        have hpos : 0 < (h :: hooks).length := by simp
        simp only [hpos, true_and, and_true, countP_committed_eq_length_iff]
        congr 1
        apply propext
        exact ⟨fun hc h' hmem => ⟨hall h' hmem, hc h' hmem⟩, fun hc h' hmem => (hc h' hmem).2⟩
      · rw [heq, connectionCommitted_iterate, if_neg (by simp), if_neg]
        intro hc
        exact hne (hc h' hmem).1

/-! ## Delivery -/

/-- The events that `deliver` hands to the sink: it stops where the sink raises. -/
def deliver (raises : ObservabilityEvent → Bool) : List ObservabilityEvent → List ObservabilityEvent
  | [] => []
  | e :: events => e :: (if raises e then [] else deliver raises events)

/-- The sink calls of `_emit_observability_events`, one entry a delivery, after the open
transactions went on with `later`. -/
def emitObservabilityEvents (sink : Option (ObservabilityEvent → Bool)) (emitting : Bool)
    (connections : Connections A) (register : A → Registration)
    (later : List (TransactionEvent A)) (events : List ObservabilityEvent) :
    List (List ObservabilityEvent) :=
  match sink with
  | none => []
  | some raises =>
    if emitting || events.isEmpty then []
    else deliveriesAfter connections register (deliver raises events) later

theorem emitObservabilityEvents_eq (raises : ObservabilityEvent → Bool)
    (connections : Connections A) (register : A → Registration)
    (later : List (TransactionEvent A)) {batch : List ObservabilityEvent} (hbatch : batch ≠ []) :
    emitObservabilityEvents (some raises) false connections register later batch =
      deliveriesAfter connections register (deliver raises batch) later := by
  have hempty : batch.isEmpty = false := by simpa using hbatch
  unfold emitObservabilityEvents
  simp only [hempty, Bool.or_self, Bool.false_eq_true, if_false]

/-- A batch is delivered at most once, after every open block has committed and then surely,
unless a connection is in a transaction without commit hooks; a rollback or a registration that
fails drops it for good. -/
theorem batch_delivered_after_commits (raises : ObservabilityEvent → Bool)
    (connections : Connections A) (register : A → Registration)
    (later : List (TransactionEvent A)) (batch : List ObservabilityEvent) (hbatch : batch ≠ []) :
    (emitObservabilityEvents (some raises) false connections register later batch).length ≤ 1 ∧
      (emitObservabilityEvents (some raises) false connections register later batch ≠ [] →
        ∀ h ∈ connections.openBlocks, h.outcome later = some .committed) ∧
      ((∃ h ∈ connections.openBlocks, h.outcome later = some .rolledBack ∨
          register h.connectionAlias ≠ .registered) →
        ∀ after, emitObservabilityEvents (some raises) false connections register
          (later ++ after) batch = []) ∧
      (connections.hookable = true →
        (∀ h ∈ connections.openBlocks, register h.connectionAlias = .registered ∧
          h.outcome later = some .committed) →
        emitObservabilityEvents (some raises) false connections register later batch =
          [deliver raises batch]) := by
  simp only [emitObservabilityEvents_eq raises connections register _ hbatch, deliveriesAfter_eq]
  refine ⟨?_, ?_, ?_, ?_⟩
  · split_ifs
    · exact le_rfl
    · exact Nat.zero_le 1
  · intro hdelivered h hmem
    split_ifs at hdelivered with hall
    · exact (hall.2 h hmem).2
    · exact absurd rfl hdelivered
  · rintro ⟨h, hmem, hlost⟩ after
    apply if_neg
    rintro ⟨-, hall⟩
    obtain ⟨hregistered, hcommitted⟩ := hall h hmem
    rcases hlost with hrolled | hraised
    · rw [Hook.outcome_append_of_eq_some hrolled after] at hcommitted
      cases hcommitted
    · exact hraised hregistered
  · intro hhook hall
    exact if_pos ⟨hhook, hall⟩

def rejection : ObservabilityEvent :=
  ⟨⟨.planRejected, .rejected, none, none, some .planInvalid, 0, none, none⟩, rfl⟩

/-- One connection in an atomic block, another one in `state`. -/
def besides (state : ConnectionState) : Connections Bool :=
  ⟨[(true, .atomic []), (false, state)], by simp⟩

/-- The observation waits for the second of two blocks, and goes with its rollback. -/
theorem rejection_waits_for_both_blocks :
    emitObservabilityEvents (some fun _ => false) false (besides (.atomic []))
        (fun _ => .registered) [.commit true] [rejection] = [] ∧
      emitObservabilityEvents (some fun _ => false) false (besides (.atomic []))
        (fun _ => .registered) [.commit true, .commit false] [rejection] = [[rejection]] ∧
      ∀ after, emitObservabilityEvents (some fun _ => false) false (besides (.atomic []))
        (fun _ => .registered) ([.commit true, .rollback false] ++ after) [rejection] = [] := by
  have h := fun later => batch_delivered_after_commits (fun _ => false) (besides (.atomic []))
    (fun _ => .registered) later [rejection] (by simp)
  refine ⟨?_, (h _).2.2.2 (by decide) (by decide), (h _).2.2.1 (by decide)⟩
  by_contra hearly
  exact absurd ((h _).2.1 hearly) (by decide)

/-- A connection in a manually managed transaction keeps the batch back for good. -/
theorem manual_transaction_drops_batch :
    ¬ ∀ (raises : ObservabilityEvent → Bool) (connections : Connections Bool)
      (register : Bool → Registration) (later : List (TransactionEvent Bool))
      (batch : List ObservabilityEvent), batch ≠ [] →
      (∀ h ∈ connections.openBlocks, register h.connectionAlias = .registered ∧
        h.outcome later = some .committed) →
      emitObservabilityEvents (some raises) false connections register later batch =
        [deliver raises batch] := by
  intro h
  have hdelivered := h (fun _ => false) (besides .manual) (fun _ => .registered) [.commit true]
    [rejection] (by simp) (by decide)
  simp [emitObservabilityEvents, deliveriesAfter, afterOpenTransactions, activeConnections,
    besides, OnCommit.run, OnCommit.step] at hdelivered

end Barrier

end AskLens.Observability
