import LurusHub.KeyedTable
import LurusHub.Transition
import Mathlib.Algebra.Order.Ring.Int

/-! The quota of a subscription period, credited to a user's balance. A call presents an entitlement
token through a tenant's slug; it inserts a grant row under that tenant and the period's key,
credits the user, and deletes the row when the credit fails. The unique index makes it idempotent.
-/
namespace LurusHub.PlanGrant

/-! Texts of a token. -/

def isSpace (c : Char) : Bool :=
  [0x09,0x0a,0x0b,0x0c,0x0d,0x20,0x85,0xa0,0x1680,0x2028,0x2029,0x202f,0x205f,0x3000].contains c.toNat ||
    (decide (0x2000 ≤ c.toNat) && decide (c.toNat ≤ 0x200a))

def trimSpace (s : String) : String := String.ofList ((s.toList.dropWhile isSpace).reverse.dropWhile isSpace).reverse

def parseUint (cs : List Char) : Option ℕ :=
  if cs ≠ [] ∧ cs.all Char.isDigit then some (cs.foldl (fun n c => 10*n+(c.toNat - '0'.toNat)) 0) else none

def parseInt (s : String) : Option ℤ :=
  match s.toList with
  | '-'::cs => (parseUint cs).bind fun n => if n ≤ 2^63 then some (-n) else none
  | '+'::cs => (parseUint cs).bind fun n => if n < 2^63 then some n else none
  | cs => (parseUint cs).bind fun n => if n < 2^63 then some n else none

/-! The hub. -/

def tenantStatusDisabled : ℕ := 2
def tenantStatusSuspended : ℕ := 3
def userStatusEnabled : ℕ := 1

structure Tenant where
  (id slug : String)
  status : ℕ := 1
  deriving DecidableEq

def Tenant.isDisabled (t : Tenant) : Bool := t.status = tenantStatusDisabled || t.status = tenantStatusSuspended

structure User where
  id : ℕ
  tenantID : String
  status : ℕ := 1
  lurusAccountID : Option ℤ := none
  deriving DecidableEq

inductive Freshness
  | fresh
  | grace
  deriving DecidableEq

inductive VerifyError
  | wrongAudience
  | rejected
  deriving DecidableEq

structure Claims where
  sub : String
  freshness : Freshness := .fresh
  ent : String → String

structure Hub where
  tenants : List Tenant
  users : List User
  tenantMissingEnforced : Bool := false
  verify : String → Except VerifyError Claims

def getTenantBySlug (hub : Hub) (slug : String) : Option Tenant := hub.tenants.find? (·.slug = slug)

def tenantGate (hub : Hub) (tenantID : String) : Bool :=
  if tenantID = "" ∨ tenantID = "default" then true
  else match hub.tenants.find? (·.id = tenantID) with
    | some t => !t.isDisabled
    | none => !hub.tenantMissingEnforced

def getUserByLurusAccountID (hub : Hub) (accountID : ℤ) : Option User := hub.users.find? (·.lurusAccountID = some accountID)

def provisionTenantIsPinned (tenantID : String) : Bool := tenantID ≠ "" && tenantID ≠ "default"

/-! One call up to its insert. -/

structure PlanQuotaGrant where
  id : ℕ := 0
  tenantID : String
  accountID : ℤ
  userID : ℕ
  (grantKey planCode : String)
  (amount createdAt : ℤ)
  deriving DecidableEq

def PlanQuotaGrant.slot (g : PlanQuotaGrant) : String × String := (g.tenantID,g.grantKey)

structure Refusal where
  status : ℕ
  code : String
  deriving DecidableEq

def planGrantKeyMaxLen : ℕ := 128
def planGrantPlanCodeMaxLen : ℕ := 64
def eligiblePlanPrefix : String := "cc_"

structure Request where
  slug : String
  entitlementToken : Option String
  deriving DecidableEq

structure Eligible where
  tenant : Tenant
  claims : Claims
  accountID : ℤ
  user : User

/-- Who may claim, and through which tenant. -/
def eligible (hub : Hub) (r : Request) (lookupFails : Bool) : Except Refusal Eligible :=
  match getTenantBySlug hub r.slug with
  | none => .error ⟨404,"TENANT_NOT_FOUND"⟩
  | some tenant =>
    if tenantGate hub tenant.id = false then .error ⟨403,"TENANT_DISABLED"⟩
    else match r.entitlementToken with
      | none => .error ⟨400,"INVALID_REQUEST"⟩
      | some token =>
        if token = "" then .error ⟨400,"MISSING_ENTITLEMENT_TOKEN"⟩
        else match hub.verify token with
          | .error .wrongAudience => .error ⟨403,"AUD_MISMATCH"⟩
          | .error .rejected => .error ⟨401,"TOKEN_INVALID"⟩
          | .ok claims =>
            if claims.freshness = .grace then .error ⟨403,"ENTITLEMENT_STALE"⟩
            else if eligiblePlanPrefix.toList.isPrefixOf (claims.ent "plan_code").toList = false ∨
                planGrantPlanCodeMaxLen < (claims.ent "plan_code").utf8ByteSize then .error ⟨403,"PLAN_NOT_ELIGIBLE"⟩
            else match parseInt claims.sub with
              | none => .error ⟨401,"TOKEN_INVALID"⟩
              | some accountID =>
                if accountID ≤ 0 then .error ⟨401,"TOKEN_INVALID"⟩
                else if lookupFails then .error ⟨500,"GRANT_FAILED"⟩
                else match getUserByLurusAccountID hub accountID with
                  | none => .error ⟨409,"NOT_PROVISIONED"⟩
                  | some user =>
                    if provisionTenantIsPinned user.tenantID && provisionTenantIsPinned tenant.id &&
                      user.tenantID ≠ tenant.id then
                      .error ⟨403,"TENANT_MISMATCH"⟩
                    else if user.status ≠ userStatusEnabled then .error ⟨403,"USER_DISABLED"⟩
                    else .ok ⟨tenant,claims,accountID,user⟩

/-- A plan with seats is granted in equal shares, each under a key of its account. -/
def seatShare (claims : Claims) (accountID amount : ℤ) (grantKey : String) : ℤ × String :=
  match parseInt (trimSpace (claims.ent "seats")) with
  | some seats => if 1 < seats then (amount.tdiv seats,grantKey++":"++accountID.repr) else (amount,grantKey)
  | none => (amount,grantKey)

def grantOf (claims : Claims) (accountID : ℤ) : Except Refusal (ℤ × String) :=
  match parseInt (trimSpace (claims.ent "newhub_pool_amount")) with
  | none => .error ⟨422,"NO_GRANT_AMOUNT"⟩
  | some amount =>
    if amount ≤ 0 then .error ⟨422,"NO_GRANT_AMOUNT"⟩
    else
      let subscriptionID := trimSpace (claims.ent "subscription_id")
      if subscriptionID = "" then .error ⟨422,"GRANT_KEY_MISSING"⟩
      else
        let (amount,grantKey) := seatShare claims accountID amount
          (subscriptionID++":"++trimSpace (claims.ent "subscription_expires_at"))
        if amount ≤ 0 then .error ⟨422,"NO_GRANT_AMOUNT"⟩
        else if planGrantKeyMaxLen < grantKey.utf8ByteSize then .error ⟨422,"GRANT_KEY_INVALID"⟩
        else .ok (amount,grantKey)

def grantRow (hub : Hub) (r : Request) (lookupFails : Bool) (now : ℤ) : Except Refusal PlanQuotaGrant :=
  match eligible hub r lookupFails with
  | .error e => .error e
  | .ok e =>
    match grantOf e.claims e.accountID with
    | .error e => .error e
    | .ok (amount,grantKey) =>
      .ok { tenantID := e.tenant.id, accountID := e.accountID, userID := e.user.id, grantKey, planCode := e.claims.ent "plan_code", amount,
            createdAt := now }

/-! Calls. -/

inductive Answer
  | refused (e : Refusal)
  | replayed (amount : ℤ) (grantKey : String)
  | granted (amount : ℤ) (grantKey : String) (newQuota : ℤ)
  deriving DecidableEq

structure Pending where
  name : ℕ
  row : PlanQuotaGrant
  failed : Bool := false
  deriving DecidableEq

structure State where
  grants : KeyedTable PlanQuotaGrant (String × String) PlanQuotaGrant.slot := .empty
  nextID : ℕ := 1
  quota : ℕ → ℤ := fun _ => 0
  pending : KeyedTable Pending ℕ Pending.name := .empty
  answers : List (ℕ × Answer) := []
  credited : List PlanQuotaGrant := []

inductive Event
  | request (name : ℕ) (r : Request) (lookupFails insertFails : Bool) (now : ℤ)
  | credit (name : ℕ) (fails : Bool)
  | delete (name : ℕ) (fails : Bool)

def step (hub : Hub) (s : State) : Event → State
  | .request name r lookupFails insertFails now =>
    if (s.pending.get? name).isSome then s
    else match grantRow hub r lookupFails now with
      | .error e => { s with answers := (name,.refused e)::s.answers }
      | .ok row =>
        if insertFails then { s with answers := (name,.refused ⟨500,"GRANT_FAILED"⟩)::s.answers }
        else match s.grants.insert? { row with id := s.nextID } with
          | none => { s with answers := (name,.replayed row.amount row.grantKey)::s.answers }
          | some grants => { s with grants, nextID := s.nextID+1, pending := s.pending.put ⟨name,{ row with id := s.nextID },false⟩ }
  | .credit name fails =>
    match s.pending.get? name with
    | some ⟨_,row,false⟩ =>
      if fails then { s with pending := s.pending.put ⟨name,row,true⟩ }
      else
        { s with
          quota := fun id => if id = row.userID then s.quota id+row.amount else s.quota id
          pending := s.pending.delete name
          answers := (name,.granted row.amount row.grantKey (s.quota row.userID+row.amount))::s.answers
          credited := row::s.credited }
    | _ => s
  | .delete name fails =>
    match s.pending.get? name with
    | some ⟨_,row,true⟩ =>
      { s with
        grants := if fails then s.grants else s.grants.deleteWhere fun g => g.id = row.id
        pending := s.pending.delete name
        answers := (name,.refused ⟨500,"GRANT_FAILED"⟩)::s.answers }
    | _ => s

end LurusHub.PlanGrant
