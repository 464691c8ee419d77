import LurusHub.CursorPages
import LurusHub.KeyedTable
import LurusHub.LengthPrefix
import LurusHub.Transition

/-! The tamper-evidence chain of the audit log. A chained row carries the hash of the tenant's
previous chained row and of its own covered fields; an insert links its row under a lock on the
chain head, or stores it unchained. The verifier computes the hashes again, page by page. -/
namespace LurusHub.AuditChain
open CursorPages

structure AuditEvent where
  id : ℕ := 0
  tenantID : String
  timestamp : ℤ
  actorType : String
  actorID : ℤ
  (action resource : String)
  resourceID : ℤ
  details : String
  ip : String := ""
  requestID : String := ""
  retentionUntil : ℤ
  prevHash : String := ""
  rowHash : String := ""
  deriving DecidableEq

/-! Building an event. -/

def defaultAuditRetentionSeconds : ℤ := 7*365*24*60*60

structure EventArgs where
  actorType : String
  actorID : ℤ
  (action resource : String)
  resourceID : ℤ
  details : String

structure Context where
  (tenantID clientIP requestID : String)

def newAuditEvent (c : Context) (ts : ℤ) (a : EventArgs) : AuditEvent where
  tenantID := if c.tenantID = "" then "default" else c.tenantID
  timestamp := ts
  actorType := a.actorType
  actorID := a.actorID
  action := a.action
  resource := a.resource
  resourceID := a.resourceID
  details := a.details
  ip := c.clientIP
  requestID := c.requestID
  retentionUntil := ts+defaultAuditRetentionSeconds

def newDetachedAuditEvent (tenantID : String) (ts : ℤ) (a : EventArgs) : AuditEvent where
  tenantID := if tenantID = "" then "default" else tenantID
  timestamp := ts
  actorType := a.actorType
  actorID := a.actorID
  action := a.action
  resource := a.resource
  resourceID := a.resourceID
  details := a.details
  retentionUntil := ts+defaultAuditRetentionSeconds

inductive NewEvent
  | audit (c : Context) (ts : ℤ) (a : EventArgs)
  | detached (tenantID : String) (ts : ℤ) (a : EventArgs)

def NewEvent.event : NewEvent → AuditEvent
  | .audit c ts a => newAuditEvent c ts a
  | .detached tenantID ts a => newDetachedAuditEvent tenantID ts a

/-! The hash of a row. -/

/-- `%d:%s\n` with the length in bytes. -/
def field (s : String) : List Char := LengthPrefix.field Char.utf8Size (fun n => n.repr.toList) ':' '\n' s.toList

def covered (e : AuditEvent) : List String :=
  [e.tenantID,e.timestamp.repr,e.actorType,e.actorID.repr,e.action,e.resource,e.resourceID.repr,e.requestID,
    e.retentionUntil.repr,e.prevHash]

def canonical (e : AuditEvent) : List Char := "lurus-audit-chain-v1\n".toList++(covered e).flatMap field

section
variable (sha256 : List Char → String)

def computeAuditRowHash (e : AuditEvent) : String := sha256 (canonical e)

/-! Inserting. -/

structure Tx where
  name : ℕ
  event : AuditEvent
  locked : Bool
  inserted : Bool := false

structure Db where
  rows : List AuditEvent := []
  heads : String → String := fun _ => ""
  nextID : ℕ := 1
  txs : KeyedTable Tx ℕ Tx.name := .empty

def Db.holder (db : Db) (tenantID : String) : Option Tx := db.txs.rows.find? fun tx => tx.locked && tx.event.tenantID = tenantID

def chainLink (db : Db) (e : AuditEvent) : AuditEvent :=
  let linked := { e with prevHash := db.heads e.tenantID }
  { linked with rowHash := computeAuditRowHash sha256 linked }

inductive Act
  | chainLink (name : ℕ) (e : NewEvent)
  | fallback (name : ℕ) (e : NewEvent)
  | insert (name : ℕ)
  | commit (name : ℕ)
  | rollback (name : ℕ)

/-- A step whose transaction is not there for it, or that would wait for a lock, does nothing. -/
def step (db : Db) : Act → Db
  | .chainLink name e =>
    if db.txs.get? name = none ∧ db.holder e.event.tenantID = none then
      { db with txs := db.txs.put ⟨name,AuditChain.chainLink sha256 db e.event,true,false⟩ }
    else db
  | .fallback name e =>
    if db.txs.get? name = none then { db with txs := db.txs.put ⟨name,e.event,false,false⟩ } else db
  | .insert name =>
    match db.txs.get? name with
    | none => db
    | some tx =>
      if tx.inserted then db
      else
        { db with
          txs := db.txs.put { tx with event := { tx.event with id := db.nextID }, inserted := true }
          nextID := db.nextID+1 }
  | .commit name =>
    match db.txs.get? name with
    | none => db
    | some tx =>
      if tx.inserted = false then db
      else
        { db with
          rows := db.rows.orderedInsert (fun a b => a.id ≤ b.id) tx.event
          heads := if tx.locked then Function.update db.heads tx.event.tenantID tx.event.rowHash else db.heads
          txs := db.txs.delete name }
  | .rollback name => { db with txs := db.txs.delete name }

/-! Verifying. -/

def chainVerifyDefaultLimit : ℤ := 1000
def chainVerifyMaxLimit : ℤ := 10000

structure ChainBreak where
  id : ℕ
  (expected actual : String)
  deriving DecidableEq

structure ChainVerifyParams where
  tenantID : String := ""
  afterID : ℕ := 0
  limit : ℤ := 0
  startTime : ℤ := 0
  endTime : ℤ := 0

structure ChainVerifyResult where
  checked : ℕ := 0
  legacyRows : ℕ := 0
  hashBreaks : ℕ := 0
  firstBreak : Option ChainBreak := none
  linkBreaks : ℕ := 0
  firstLinkBreak : Option ChainBreak := none
  linkChecksSkipped : Bool := false
  nextCursor : ℕ := 0
  deriving DecidableEq

namespace ChainVerifyParams
variable (p : ChainVerifyParams)

def effectiveLimit : ℕ :=
  let limit := if p.limit ≤ 0 then chainVerifyDefaultLimit else p.limit
  (min limit chainVerifyMaxLimit).toNat

def timeFiltered : Bool := 0 < p.startTime || 0 < p.endTime

def selected (rows : List AuditEvent) : List AuditEvent :=
  rows.filter fun e => decide (p.afterID < e.id) && (p.tenantID = "" || e.tenantID = p.tenantID) &&
    (decide (p.startTime ≤ 0) || decide (p.startTime ≤ e.timestamp)) &&
    (decide (p.endTime ≤ 0) || decide (e.timestamp ≤ p.endTime))

/-- One row more than the limit is fetched, to tell whether any remain. -/
def fetched (rows : List AuditEvent) : List AuditEvent := (p.selected rows).take (p.effectiveLimit+1)

def window (rows : List AuditEvent) : List AuditEvent :=
  if p.effectiveLimit < (p.fetched rows).length then (p.fetched rows).take p.effectiveLimit else p.fetched rows

def cursor (rows : List AuditEvent) : ℕ :=
  if p.effectiveLimit < (p.fetched rows).length then ((p.window rows).getLast?.map AuditEvent.id).getD 0 else 0

end ChainVerifyParams

def ofChain (tenantID : String) (e : AuditEvent) : Bool := e.tenantID = tenantID && e.rowHash ≠ ""

def priorChained (rows : List AuditEvent) (tenantID : String) (beforeID : ℕ) : Option AuditEvent :=
  lastBelow AuditEvent.id (ofChain tenantID) rows beforeID

def priorChainedHash (rows : List AuditEvent) (tenantID : String) (beforeID : ℕ) : Option String :=
  (priorChained rows tenantID beforeID).map AuditEvent.rowHash

structure Scan where
  res : ChainVerifyResult
  lastHash : String → Option String := fun _ => none
  seeded : String → Bool := fun _ => false

def Scan.want (s : Scan) (rows : List AuditEvent) (e : AuditEvent) : Option String :=
  match s.lastHash e.tenantID with
  | some h => some h
  | none => if s.seeded e.tenantID then none else priorChainedHash rows e.tenantID e.id

def checkLink (rows : List AuditEvent) (s : Scan) (e : AuditEvent) : Scan where
  res :=
    match s.want rows e with
    | some want =>
      if e.prevHash = want then s.res
      else { s.res with linkBreaks := s.res.linkBreaks+1, firstLinkBreak := s.res.firstLinkBreak.or (some ⟨e.id,want,e.prevHash⟩) }
    | none => s.res
  lastHash := Function.update s.lastHash e.tenantID (some e.rowHash)
  seeded := if s.lastHash e.tenantID = none then Function.update s.seeded e.tenantID true else s.seeded

def checkHash (s : Scan) (e : AuditEvent) : Scan :=
  let expected := computeAuditRowHash sha256 e
  { s with res :=
      if expected = e.rowHash then { s.res with checked := s.res.checked+1 }
      else { s.res with
        checked := s.res.checked+1
        hashBreaks := s.res.hashBreaks+1
        firstBreak := s.res.firstBreak.or (some ⟨e.id,expected,e.rowHash⟩) } }

/-- An unchained row neither has nor resets a link. -/
def scanRow (rows : List AuditEvent) (timeFiltered : Bool) (s : Scan) (e : AuditEvent) : Scan :=
  if e.rowHash = "" then { s with res := { s.res with legacyRows := s.res.legacyRows+1 } }
  else checkHash sha256 (if timeFiltered then s else checkLink rows s e) e

def verifyAuditChain (rows : List AuditEvent) (p : ChainVerifyParams) : ChainVerifyResult :=
  ((p.window rows).foldl (scanRow sha256 rows p.timeFiltered)
    { res := { linkChecksSkipped := p.timeFiltered, nextCursor := p.cursor rows } }).res

/-- The calls that follow NextCursor, each with a limit of the caller's choice. -/
def follow (rows : List AuditEvent) (limits : ℕ → ℤ) : ℕ → ℕ → ℕ → List ChainVerifyParams
  | 0,_,_ => []
  | fuel+1,n,cursor =>
    let p : ChainVerifyParams := { afterID := cursor, limit := limits n }
    let next := (verifyAuditChain sha256 rows p).nextCursor
    p::if next = 0 then [] else follow rows limits fuel (n+1) next

end

end LurusHub.AuditChain
