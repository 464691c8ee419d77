import LurusHub.KeyedTable
import LurusHub.Transition
import Mathlib.Data.List.Sort
import Mathlib.Algebra.Order.Ring.Int

/-! The billing outbox: parked settles, releases and debits, retried by any number of workers. A
claim marks due rows 'processing'; the platform call and the final update, guarded by that status,
are separate steps. Clock, locked rows and answers are the label's choice. -/
namespace LurusHub.BillingOutbox
open Transition

/-- Microseconds. -/
abbrev Time := ℤ

def outboxMaxRetries : ℕ := 10
def outboxMaxBackoff : Time := 300*1000000
def outboxClaimLease : Time := 300*1000000

inductive Status
  | pending | processing | done | failed
  deriving DecidableEq, Repr

def Status.terminal : Status → Bool
  | .done | .failed => true
  | .pending | .processing => false

inductive Action
  | settle (preAuthID : ℤ)
  | release (preAuthID : ℤ)
  | debit (refID : String)
  deriving DecidableEq, Repr

inductive Table
  | billingOutbox | billingDebitOutbox
  deriving DecidableEq, Repr

def Action.table : Action → Table
  | .settle _ | .release _ => .billingOutbox
  | .debit _ => .billingDebitOutbox

abbrev Key := Table × ℕ

structure Row where
  id : ℕ
  action : Action
  status : Status
  retryCount : ℕ
  (nextRetry updatedAt : Time)
  error : String
  deriving DecidableEq, Repr

abbrev Row.key (r : Row) : Key := (r.action.table,r.id)

inductive Outcome
  | success
  | failure (futile : Bool) (error : String)
  deriving DecidableEq, Repr

inductive Worker
  | idle
  | busy (table : Table) (queue : List Row) (current : Option (Row × Outcome))
  deriving DecidableEq, Repr

structure State where
  clock : Time
  rows : KeyedTable Row Key Row.key
  workers : List Worker
  /-- Every platform call made, oldest first. -/
  calls : List (Key × Outcome)

def init (workers : ℕ) : State := ⟨0,.empty,List.replicate workers .idle,[]⟩

inductive Act
  | tick (d : ℕ)
  | enqueue (action : Action) (now : Time)
  | claim (worker : ℕ) (now : Time) (locked : List Key)
  /-- The claim statement fails: nothing was claimed. -/
  | claimError (worker : ℕ)
  /-- RETURNING promises no order, so the next entry is the label's choice. -/
  | call (worker entry : ℕ) (outcome : Outcome)
  | finish (worker : ℕ)
  | exit (worker : ℕ)
  deriving DecidableEq, Repr

def outboxBackoff (retry : ℕ) : Time := min (2^retry*5*1000000) outboxMaxBackoff

/-- The WHERE clause of the claim. -/
def due (now : Time) (r : Row) : Bool :=
  (r.status = .pending && r.nextRetry ≤ now) || (r.status = .processing && r.updatedAt ≤ now-outboxClaimLease)

def Row.claimed (now : Time) (r : Row) : Row := { r with status := .processing, updatedAt := now }

@[simp] lemma Row.claimed_key (r : Row) : (r.claimed now).key = r.key := rfl

/-- Due rows nobody has locked, by `next_retry`, at most 50. -/
def claimable (rows : KeyedTable Row Key Row.key) (table : Table) (now : Time) (locked : List Key) : List Row :=
  ((rows.rows.filter fun r => r.action.table = table && due now r && !locked.contains r.key).insertionSort
    fun a b => a.nextRetry ≤ b.nextRetry).take 50

/-- The claim statement: the table after it and the rows it returns. -/
def claimOutboxRows (rows : KeyedTable Row Key Row.key) (table : Table) (now : Time) (locked : List Key) :
    KeyedTable Row Key Row.key × List Row :=
  let picked := claimable rows table now locked
  (rows.updateWhere (fun r => r ∈ picked) (Row.claimed now),picked.map (Row.claimed now))

def finalUpdate (now : Time) (e : Row) (o : Outcome) (r : Row) : Row :=
  match o with
  | .success => { r with status := .done, error := "", updatedAt := now }
  | .failure futile error =>
    let retryCount := e.retryCount+1
    -- the platform's verdict only counts for holds, and the debit outbox keeps next_retry on its last failure
    let verdict := futile && e.action.table = .billingOutbox
    let last := verdict || outboxMaxRetries ≤ retryCount
    { r with
      status := if last then .failed else .pending
      retryCount
      nextRetry := if !last then now+outboxBackoff retryCount
        else if e.action.table = .billingOutbox then e.nextRetry else r.nextRetry
      error
      updatedAt := now }

@[simp] lemma finalUpdate_key (now : Time) (e : Row) (o : Outcome) (r : Row) : (finalUpdate now e o r).key = r.key := by
  cases o <;> rfl

/-- `UPDATE ... WHERE id = ? AND status = 'processing'`. -/
def writeFinal (now : Time) (e : Row) (o : Outcome) (rows : KeyedTable Row Key Row.key) :
    KeyedTable Row Key Row.key :=
  rows.updateWhere (fun r => r.key = e.key && r.status = .processing) (finalUpdate now e o)
    (finalUpdate_key now e o)

def nextID (rows : KeyedTable Row Key Row.key) (table : Table) : ℕ :=
  (rows.rows.filter fun r => r.action.table = table).length+1

/-- `EnqueueSettle`, `EnqueueRelease`, `EnqueueDebit`; a duplicate is refused by the unique index. -/
def enqueue (rows : KeyedTable Row Key Row.key) (action : Action) (now : Time) :
    Option (KeyedTable Row Key Row.key) :=
  if rows.rows.any fun r => r.action = action then none
  else rows.insert? {
    id := nextID rows action.table
    action
    status := .pending
    retryCount := 0
    nextRetry := now
    updatedAt := now
    error := "" }

def Worker.nextTable : Worker → Option Table
  | .idle => some .billingDebitOutbox
  | .busy .billingDebitOutbox [] none => some .billingOutbox
  | .busy _ _ _ => none

def State.setWorker (s : State) (i : ℕ) (w : Worker) : State := { s with workers := s.workers.set i w }

def step (s : State) : Act → State
  | .tick d => { s with clock := s.clock+d }
  | .enqueue action now =>
    if now ≤ s.clock then { s with rows := (enqueue s.rows action now).getD s.rows } else s
  | .claim i now locked =>
    match s.workers[i]?.bind Worker.nextTable with
    | some table =>
      if now ≤ s.clock then
        let (rows,queue) := claimOutboxRows s.rows table now locked
        { s.setWorker i (.busy table queue none) with rows }
      else s
    | none => s
  | .claimError i =>
    match s.workers[i]?.bind Worker.nextTable with
    | some table => s.setWorker i (if table = .billingOutbox then .idle else .busy table [] none)
    | none => s
  | .call i n outcome =>
    match s.workers[i]? with
    | some (.busy table queue none) =>
      match queue[n]? with
      | some e => { s.setWorker i (.busy table (queue.eraseIdx n) (some (e,outcome))) with
          calls := s.calls++[(e.key,outcome)] }
      | none => s
    | _ => s
  | .finish i =>
    match s.workers[i]? with
    | some (.busy table queue (some (e,outcome))) =>
      { s.setWorker i (.busy table queue none) with rows := writeFinal s.clock e outcome s.rows }
    | _ => s
  | .exit i =>
    match s.workers[i]? with
    | some (.busy .billingOutbox [] none) => s.setWorker i .idle
    | _ => s

end LurusHub.BillingOutbox
