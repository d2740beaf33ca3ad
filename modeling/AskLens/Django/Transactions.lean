import Mathlib.Data.List.Basic
import Mathlib.Data.List.Count
import Mathlib.Logic.Function.Iterate
import Mathlib.Tactic.Common

/-!
# Commit hooks

`transaction.on_commit` as Django documents it: a callback registered inside an
atomic block runs once when the outermost block of its connection commits, and
is dropped when that block or a savepoint open at the registration rolls back.
-/
namespace AskLens.Django

variable {A S : Type} [DecidableEq A]

/-- An entry of `run_on_commit`: the connection and the savepoints open at the registration. -/
structure Hook (A : Type) where
  connectionAlias : A
  savepointIds : List ℕ
deriving DecidableEq, Repr

inductive TransactionEvent (A : Type) where
  | commit (connectionAlias : A)
  | rollback (connectionAlias : A)
  | savepointRollback (connectionAlias : A) (sid : ℕ)
deriving DecidableEq, Repr

inductive Outcome where
  | committed | rolledBack
deriving DecidableEq, Repr

/-- What an event decides about the transaction of a hook, if anything. -/
def Hook.settledBy (h : Hook A) : TransactionEvent A → Option Outcome
  | .commit a => if a = h.connectionAlias then some .committed else none
  | .rollback a => if a = h.connectionAlias then some .rolledBack else none
  | .savepointRollback a sid =>
    if a = h.connectionAlias ∧ sid ∈ h.savepointIds then some .rolledBack else none

/-- How the transaction of a hook ended: the first event that decides it counts. -/
def Hook.outcome (h : Hook A) : List (TransactionEvent A) → Option Outcome
  | [] => none
  | e :: events => (h.settledBy e).or (h.outcome events)

/-- The hooks that wait for their transactions, and the state their callback works on. -/
structure OnCommit (A S : Type) where
  pending : List (Hook A)
  state : S

/-- One event: a commit runs the hooks of its connection, a rollback drops those it undoes. -/
def OnCommit.step (callback : S → S) (s : OnCommit A S) (e : TransactionEvent A) :
    OnCommit A S where
  pending := s.pending.filter fun h => h.settledBy e = none
  state := (s.pending.filter fun h => h.settledBy e = some .committed).foldl
    (fun state _ => callback state) s.state

def OnCommit.run (callback : S → S) (s : OnCommit A S) (events : List (TransactionEvent A)) :
    OnCommit A S :=
  events.foldl (OnCommit.step callback) s

/-! ## How often the callback runs -/

omit [DecidableEq A] in
theorem foldl_const_eq_iterate (f : S → S) (l : List A) (s : S) :
    l.foldl (fun state _ => f state) s = f^[l.length] s := by
  induction l generalizing s with
  | nil => rfl
  | cons a l ih =>
    rw [List.foldl_cons, ih, List.length_cons, Function.iterate_succ_apply]

/-- A hook that an event leaves alone is decided by the later ones. -/
theorem countP_outcome_cons (e : TransactionEvent A) (events : List (TransactionEvent A))
    (hooks : List (Hook A)) :
    hooks.countP (fun h => h.outcome (e :: events) = some .committed) =
      (hooks.filter fun h => h.settledBy e = none).countP
          (fun h => h.outcome events = some .committed) +
        (hooks.filter fun h => h.settledBy e = some .committed).length := by
  induction hooks with
  | nil => rfl
  | cons h hooks ih =>
    have hout : h.outcome (e :: events) = (h.settledBy e).or (h.outcome events) := rfl
    rw [List.countP_cons, ih, hout]
    cases hs : h.settledBy e with
    | none =>
      by_cases hlater : h.outcome events = some .committed
      · simp [hs, hlater]
        omega
      · simp [hs, hlater]
    | some o =>
      cases o with
      | committed => simp [hs]; omega
      | rolledBack => simp [hs]

/-- The callback runs once for every hook whose transaction committed. -/
theorem OnCommit.state_run (callback : S → S) (events : List (TransactionEvent A))
    (s : OnCommit A S) :
    (s.run callback events).state =
      callback^[s.pending.countP fun h => h.outcome events = some .committed] s.state := by
  induction events generalizing s with
  | nil => simp [run, Hook.outcome]
  | cons e events ih =>
    have hrun : s.run callback (e :: events) = (s.step callback e).run callback events := rfl
    rw [hrun, ih, countP_outcome_cons, Function.iterate_add_apply]
    simp only [step, foldl_const_eq_iterate]

theorem Hook.outcome_append (h : Hook A) (before after : List (TransactionEvent A)) :
    h.outcome (before ++ after) = (h.outcome before).or (h.outcome after) := by
  induction before with
  | nil => rfl
  | cons e before ih =>
    have hcons : ∀ l, h.outcome (e :: l) = (h.settledBy e).or (h.outcome l) := fun _ => rfl
    rw [List.cons_append, hcons, hcons, ih, Option.or_assoc]

theorem Hook.outcome_append_of_eq_some {h : Hook A} {before : List (TransactionEvent A)}
    {o : Outcome} (hbefore : h.outcome before = some o) (after : List (TransactionEvent A)) :
    h.outcome (before ++ after) = some o := by
  rw [outcome_append, hbefore, Option.some_or]

end AskLens.Django
