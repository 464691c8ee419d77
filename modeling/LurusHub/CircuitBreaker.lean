import LurusHub.Transition
import Mathlib.Algebra.Order.Ring.Int

/-! The circuit breaker of a channel. A run of failures trips it; after a timeout one request is let
through as a probe, and its report decides. Reports carry no identity. -/
namespace LurusHub.CircuitBreaker

inductive State
  | stateClosed | stateOpen | stateHalfOpen
  deriving DecidableEq

structure Config where
  (threshold timeout halfOpenTimeout : ℤ)
  failureWindow : ℤ := 0
  deriving DecidableEq

def second : ℤ := 1000000000

def defaultHalfOpenTimeout : ℤ := 60*second

def defaultConfig : Config where
  threshold := 5
  timeout := 30*second
  halfOpenTimeout := defaultHalfOpenTimeout

structure Breaker extends Config where
  state : State := .stateClosed
  consecutiveFails : ℤ := 0
  lastFailTime : ℤ := 0
  halfOpenSince : ℤ := 0
  deriving DecidableEq

/-- A new breaker; a probe bound that is not set falls back to the timeout, and then to the default. -/
def getOrCreate (cfg : Config) : Breaker :=
  let halfOpenTimeout :=
    if cfg.halfOpenTimeout ≤ 0 then if cfg.timeout ≤ 0 then defaultHalfOpenTimeout else cfg.timeout
    else cfg.halfOpenTimeout
  { toConfig := { cfg with halfOpenTimeout } }

namespace Breaker

/-- The clock is read once for the decision and again for the time of the probe. -/
def allow (b : Breaker) (now later : ℤ) : Bool × Breaker :=
  match b.state with
  | .stateClosed => (true,b)
  | .stateOpen =>
    if b.timeout ≤ now-b.lastFailTime then (true,{ b with state := .stateHalfOpen, halfOpenSince := later }) else (false,b)
  | .stateHalfOpen =>
    if b.halfOpenTimeout ≤ now-b.halfOpenSince then (true,{ b with halfOpenSince := later }) else (false,b)

def recordSuccess (b : Breaker) : Breaker :=
  { b with consecutiveFails := 0, state := .stateClosed, halfOpenSince := 0 }

/-- The run of failures that a failure at `now` adds to; a previous failure that has aged out ends the run. -/
def failureRun (b : Breaker) (now : ℤ) : ℤ :=
  if b.state = .stateClosed ∧ 0 < b.failureWindow ∧ 0 < b.consecutiveFails ∧ b.failureWindow < now-b.lastFailTime then 0
  else b.consecutiveFails

def recordFailure (b : Breaker) (now : ℤ) : Breaker :=
  let counted := { b with consecutiveFails := b.failureRun now+1, lastFailTime := now }
  match b.state with
  | .stateClosed => if b.threshold ≤ counted.consecutiveFails then { counted with state := .stateOpen } else counted
  | .stateHalfOpen => { counted with state := .stateOpen, halfOpenSince := 0 }
  | .stateOpen => counted

def recordInconclusive (b : Breaker) (now : ℤ) : Breaker :=
  if b.state = .stateHalfOpen then { b with state := .stateOpen, halfOpenSince := 0, lastFailTime := now } else b

end Breaker

inductive Outcome
  | success | failure | inconclusive
  deriving DecidableEq

def Breaker.record (b : Breaker) (now : ℤ) : Outcome → Breaker
  | .success => b.recordSuccess
  | .failure => b.recordFailure now
  | .inconclusive => b.recordInconclusive now

/-! What the breaker does, one state at a time. -/

namespace Breaker
variable {b : Breaker}

lemma allow_closed (h : b.state = .stateClosed) : b.allow now later = (true,b) := by simp [allow,h]

lemma allow_open (h : b.state = .stateOpen) : b.allow now later = if b.timeout ≤ now-b.lastFailTime then
      (true,{ b with state := .stateHalfOpen, halfOpenSince := later }) else (false,b) := by
  simp [allow,h]

lemma allow_halfOpen (h : b.state = .stateHalfOpen) :
    b.allow now later = if b.halfOpenTimeout ≤ now-b.halfOpenSince then (true,{ b with halfOpenSince := later })
      else (false,b) := by
  simp [allow,h]

@[simp] lemma allow_toConfig (b : Breaker) (now later : ℤ) : (b.allow now later).2.toConfig = b.toConfig := by
  cases h : b.state with
  | stateClosed => rw [allow_closed h]
  | stateOpen =>
    rw [allow_open h]
    split <;> rfl
  | stateHalfOpen =>
    rw [allow_halfOpen h]
    split <;> rfl

@[simp] lemma record_toConfig (b : Breaker) (now : ℤ) (o : Outcome) : (b.record now o).toConfig = b.toConfig := by
  cases o with
  | success => rfl
  | failure =>
    simp only [record,recordFailure]
    repeat' split
    all_goals rfl
  | inconclusive =>
    simp only [record,recordInconclusive]
    split <;> rfl

lemma record_open (h : b.state = .stateOpen) (ho : o ≠ .success) (now : ℤ) :
    (b.record now o).state = .stateOpen ∧
      ((b.record now o).lastFailTime = now ∨ (b.record now o).lastFailTime = b.lastFailTime) := by
  cases o with
  | success => exact absurd rfl ho
  | failure => simp [record,recordFailure,h]
  | inconclusive => simp [record,recordInconclusive,h]

lemma record_halfOpen (h : b.state = .stateHalfOpen) (ho : o ≠ .success) (now : ℤ) :
    (b.record now o).state = .stateOpen ∧ (b.record now o).lastFailTime = now := by
  cases o with
  | success => exact absurd rfl ho
  | failure => simp [record,recordFailure,h]
  | inconclusive => simp [record,recordInconclusive,h]

lemma record_trips (h : b.state = .stateClosed) (ho : (b.record now o).state = .stateOpen) :
    (b.record now o).lastFailTime = now := by
  cases o with
  | success => cases ho
  | failure =>
    simp only [record,recordFailure,h]
    split <;> rfl
  | inconclusive => simp [record,recordInconclusive,h] at ho

end Breaker

/-! The breaker among the requests that it admits. -/

structure Request where
  admittedAt : ℤ
  report : Option Outcome := none
  deriving DecidableEq

structure System where
  breaker : Breaker
  now : ℤ
  requests : List Request := []
  deriving DecidableEq

inductive Event
  | allow (lag : ℕ)
  | report (id : ℕ) (outcome : Outcome)

/-- An event comes with the time that has passed since the last one. A request that has reported, or was never admitted,
does not report. -/
def step (s : System) (l : ℕ × Event) : System :=
  match l.2 with
  | .allow lag =>
    let answer := s.breaker.allow (s.now+l.1) (s.now+l.1+lag)
    ⟨answer.2,s.now+l.1+lag,if answer.1 then s.requests++[{ admittedAt := s.now+l.1+lag }] else s.requests⟩
  | .report id outcome =>
    match s.requests[id]? with
    | some ⟨admittedAt,none⟩ =>
      ⟨s.breaker.record (s.now+l.1) outcome,s.now+l.1,s.requests.set id ⟨admittedAt,some outcome⟩⟩
    | _ => { s with now := s.now+l.1 }

def start (cfg : Config) (now : ℤ) : System := { breaker := getOrCreate cfg, now }

end LurusHub.CircuitBreaker
