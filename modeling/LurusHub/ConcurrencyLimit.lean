import LurusHub.KeyedTable
import LurusHub.Transition
import Mathlib.Algebra.Order.Ring.Int

/-! In-flight concurrency limiting. A request takes a slot of its token and one of its tenant: a
lease under its id with the admission instant; leases older than the TTL are dropped first. The
local backend works under one lock, the Redis backend with three commands. -/
namespace LurusHub.ConcurrencyLimit

def concurrencyTokenKeyPrefix : String := "cc:tok:"
def concurrencyTenantKeyPrefix : String := "cc:tenant:"
def concurrencyDefaultLeaseTTLSeconds : ℤ := 1800
def concurrencyLimitErrorCode : String := "concurrency_limit_exceeded"

structure Config where
  redisEnabled : Bool
  concurrencyLimitPerToken : ℤ := 0
  concurrencyLimitPerTenant : ℤ := 0
  leaseTTL : ℤ := concurrencyDefaultLeaseTTLSeconds

def Config.concurrencyLeaseTTL (cfg : Config) : ℤ :=
  (if cfg.leaseTTL ≤ 0 then concurrencyDefaultLeaseTTLSeconds else cfg.leaseTTL)*1000000000

def unixMilli (t : ℤ) : ℤ := t/1000000

structure Caller where
  tokenID : ℤ
  tenantID : String
  deriving DecidableEq

structure Dimension where
  (scope key : String)
  limit : ℤ
  deriving DecidableEq

/-- What `RelayConcurrencyLimit` asks slots of, in this order. -/
def dimensions (cfg : Config) (c : Caller) : List Dimension :=
  (if 0 < cfg.concurrencyLimitPerToken ∧ 0 < c.tokenID then
    [⟨"token",concurrencyTokenKeyPrefix++c.tokenID.repr,cfg.concurrencyLimitPerToken⟩] else [])++
  (if 0 < cfg.concurrencyLimitPerTenant ∧ c.tenantID ≠ "" then
    [⟨"tenant",concurrencyTenantKeyPrefix++c.tenantID,cfg.concurrencyLimitPerTenant⟩] else [])

structure Rejection where
  status : ℕ
  (scope message code : String)
  deriving DecidableEq

def ccReject (d : Dimension) : Rejection where
  status := 429
  scope := d.scope
  message := d.scope++" concurrency limit exceeded: "++d.limit.repr++" in-flight requests ("++concurrencyLimitErrorCode++
    "); wait for an in-flight request to finish"
  code := concurrencyLimitErrorCode

/-! The slots of one key. -/

structure Lease where
  leaseID : ℕ
  score : ℤ
  deriving DecidableEq

abbrev Slots := KeyedTable Lease ℕ Lease.leaseID

def ccLocalAcquire (slots : Slots) (leaseID : ℕ) (limit ttl now : ℤ) : Slots × Bool :=
  let live := slots.deleteWhere fun l => ttl < now-l.score
  if limit ≤ live.size then (live,false) else (live.put ⟨leaseID,now⟩,true)

def zRemRangeByScore (slots : Slots) (cutoff : ℤ) : Slots := slots.deleteWhere fun l => l.score ≤ cutoff

/-! Requests. -/

inductive Phase
  | acquire (rest : List Dimension)
  | sweep (now : ℤ) (d : Dimension) (rest : List Dimension)
  | count (now : ℤ) (d : Dimension) (rest : List Dimension)
  | insert (now : ℤ) (d : Dimension) (rest : List Dimension)
  | relay
  | release (answer : Option Rejection)
  | done (answer : Option Rejection)
  deriving DecidableEq

structure Request where
  leaseID : ℕ
  caller : Caller
  phase : Phase
  releases : List (String × ℤ) := []
  deriving DecidableEq

structure System where
  slots : String → Slots := fun _ => .empty
  expireAt : String → Option ℤ := fun _ => none
  requests : KeyedTable Request ℕ Request.leaseID := .empty
  clock : ℤ := 0

def System.setSlots (s : System) (key : String) (slots : Slots) : System := { s with slots := Function.update s.slots key slots }

def System.setRequest (s : System) (r : Request) : System := { s with requests := s.requests.put r }

def Request.admitted (r : Request) (key : String) (now : ℤ) (rest : List Dimension) : Request :=
  { r with phase := .acquire rest, releases := (key,now)::r.releases }

def Request.rejected (r : Request) (d : Dimension) : Request := { r with phase := .release (some (ccReject d)) }

/-- The MULTI block of ZADD and EXPIRE. -/
def System.zAddExpire (cfg : Config) (s : System) (key : String) (leaseID : ℕ) (now : ℤ) : System :=
  { s with
    slots := Function.update s.slots key ((s.slots key).put ⟨leaseID,unixMilli now⟩)
    expireAt := Function.update s.expireAt key (some (s.clock+2*cfg.concurrencyLeaseTTL)) }

def next (cfg : Config) (s : System) (r : Request) : System :=
  match r.phase with
  | .acquire [] => s.setRequest { r with phase := .relay }
  | .acquire (d::rest) => s.setRequest { r with phase := .sweep s.clock d rest }
  | .sweep now d rest =>
    if cfg.redisEnabled then
      (s.setSlots d.key (zRemRangeByScore (s.slots d.key) (unixMilli (now-cfg.concurrencyLeaseTTL)))).setRequest
        { r with phase := .count now d rest }
    else
      let acquired := ccLocalAcquire (s.slots d.key) r.leaseID d.limit cfg.concurrencyLeaseTTL now
      (s.setSlots d.key acquired.1).setRequest (if acquired.2 then r.admitted d.key now rest else r.rejected d)
  | .count now d rest =>
    s.setRequest (if d.limit ≤ (s.slots d.key).size then r.rejected d else { r with phase := .insert now d rest })
  | .insert now d rest => (s.zAddExpire cfg d.key r.leaseID now).setRequest (r.admitted d.key now rest)
  | .relay => s.setRequest { r with phase := .release none }
  | .release answer =>
    match r.releases with
    | [] => s.setRequest { r with phase := .done answer }
    | (key,_)::rest => (s.setSlots key ((s.slots key).delete r.leaseID)).setRequest { r with releases := rest }
  | .done _ => s

/-- A Redis command of the request fails; it may have run all the same. An acquire that failed lets the request pass. -/
def fail (cfg : Config) (s : System) (r : Request) (ran : Bool) : System :=
  let s' := if ran then next cfg s r else s
  match r.phase with
  | .sweep _ _ rest => s'.setRequest { r with phase := .acquire rest }
  | .count _ _ rest => s.setRequest { r with phase := .acquire rest }
  | .insert _ _ rest => s'.setRequest { r with phase := .acquire rest }
  | .release _ => s'.setRequest { r with releases := r.releases.tail }
  | _ => s

inductive Event
  | arrive (leaseID : ℕ) (caller : Caller)
  | next (leaseID : ℕ)
  | backendError (leaseID : ℕ) (ran : Bool)
  | tick (d : ℕ)
  | expire (key : String)
  deriving DecidableEq

def step (cfg : Config) (s : System) : Event → System
  | .arrive leaseID caller =>
    if s.requests.get? leaseID = none then s.setRequest ⟨leaseID,caller,.acquire (dimensions cfg caller),[]⟩ else s
  | .next leaseID =>
    match s.requests.get? leaseID with
    | none => s
    | some r => next cfg s r
  | .backendError leaseID ran =>
    match s.requests.get? leaseID with
    | none => s
    | some r => if cfg.redisEnabled then fail cfg s r ran else s
  | .tick d => { s with clock := s.clock+d }
  | .expire key =>
    match s.expireAt key with
    | none => s
    | some t => if t ≤ s.clock then { s.setSlots key .empty with expireAt := Function.update s.expireAt key none } else s

end LurusHub.ConcurrencyLimit
