import LurusHub.ChannelCache

/-! Routing without the memory cache: the abilities table has a row for every group and model of a
channel, and selection keeps one priority tier of the tenant's rows and draws by weight. One
selection draws from the query alone, the other loads the channels first, to ask a predicate. -/
namespace LurusHub.AbilityRouting
open ChannelCache

structure Ability where
  (group model : String)
  channelId : ℤ
  enabled : Bool
  priority : Option ℤ
  weight : UInt64
  deriving DecidableEq

abbrev Abilities := KeyedTable Ability (String × String × ℤ) fun a => (a.group,a.model,a.channelId)

structure Database where
  abilities : Abilities
  channels : Channels

inductive RouteError
  | consistencyViolated
  | scanNull
  | noChannelSatisfiesPredicate
  | recordNotFound
  | emptyRange
  deriving DecidableEq

/-! The queries. -/

/-- The rows of channels that the tenant may use; the empty tenant asks for no filter. -/
def abilityTenantScope (db : Database) (tenantID : String) (a : Ability) : Bool :=
  tenantID = "" || (db.channels.get? a.channelId).any fun c => c.tenantId ∈ ["default","",tenantID]

def abilityBaseCondition (db : Database) (group model tenantID : String) (a : Ability) : Bool :=
  a.group = group && a.model = model && a.enabled && abilityTenantScope db tenantID a

def baseRows (db : Database) (group model tenantID : String) : List Ability :=
  db.abilities.rows.filter (abilityBaseCondition db group model tenantID)

def orderByWeight (rows : List Ability) : List Ability := rows.insertionSort fun a b => b.weight ≤ a.weight

/-- Priorities are read into a list of ints, which has no place for a NULL. -/
def getPriority (db : Database) (group model : String) (retry : ℕ) (tenantID : String) : Except RouteError ℤ :=
  match ((baseRows db group model tenantID).map Ability.priority).dedup.mapM id with
  | none => .error .scanNull
  | some distinct =>
    let priorities := distinct.insertionSort (· ≥ ·)
    if priorities = [] then .error .consistencyViolated
    else if priorities.length ≤ retry then .ok (priorities.getD (priorities.length-1) 0)
    else .ok (priorities.getD retry 0)

/-- `SELECT MAX(priority)`, which passes over NULLs. -/
def maxPriority (rows : List Ability) : Option ℤ := (rows.filterMap Ability.priority).max?

/-- A comparison with NULL selects no row. -/
def getChannelQuery (db : Database) (group model : String) (retry : ℕ) (tenantID : String) : Except RouteError (List Ability) :=
  let rows := baseRows db group model tenantID
  if retry = 0 then .ok (rows.filter fun a => a.priority.isSome && a.priority = maxPriority rows)
  else (getPriority db group model retry tenantID).map fun priority => rows.filter fun a => a.priority = some priority

/-! The draws. -/

/-- The row at which the number, counted down, is zero or less. -/
def drawRow : List Ability → Int64 → Option Ability
  | [],_ => none
  | a::rows,weight =>
    let weight := weight-(a.weight.toInt64+10)
    if weight ≤ 0 then some a else drawRow rows weight

def weightSumWhere (rows : List Ability) : Int64 := rows.foldl (fun sum a => sum+(a.weight.toInt64+10)) 0

/-- The sum of `GetChannelForTenant`, in uints, as it is passed on. -/
def weightSumForTenant (rows : List Ability) : Int64 := (rows.foldl (fun sum a => sum+(a.weight+10)) (0 : UInt64)).toInt64

def drawWhere (rows : List Ability) (weight : Int64) : ℤ :=
  (((drawRow rows weight).or rows.getLast?).map Ability.channelId).getD 0

def drawForTenant (rows : List Ability) (weight : Int64) : ℤ := ((drawRow rows weight).map Ability.channelId).getD 0

/-- `weight` is what `GetRandomInt` returns, which panics for a range that is empty. -/
def getChannelForTenant (db : Database) (group model : String) (retry : ℕ) (tenantID : String) (weight : Int64) :
    Except RouteError (Option Channel) :=
  (getChannelQuery db group model retry tenantID).bind fun rows =>
    let abilities := orderByWeight rows
    if abilities = [] then .ok none
    else if weightSumForTenant abilities ≤ 0 then .error .emptyRange
    else
      match db.channels.get? (drawForTenant abilities weight) with
      | some channel => .ok (some channel)
      | none => .error .recordNotFound

def abilityPriority (a : Ability) : ℤ := a.priority.getD 0

def accepted (db : Database) (pred : Channel → Bool) (abilities : List Ability) : List Ability :=
  abilities.filter fun a => (db.channels.get? a.channelId).any pred

def sortedTiers (rows : List Ability) : List ℤ := ((rows.map abilityPriority).dedup).insertionSort (· ≥ ·)

def tierRows (rows : List Ability) (retry : ℕ) : List Ability :=
  let tiers := sortedTiers rows
  rows.filter fun a => abilityPriority a = tiers.getD (min retry (tiers.length-1)) 0

def getChannelForTenantWhere (db : Database) (group model : String) (retry : ℕ) (tenantID : String) (pred : Channel → Bool)
    (weight : Int64) : Except RouteError (Option Channel) :=
  let abilities := orderByWeight (baseRows db group model tenantID)
  if abilities = [] then .ok none
  else if accepted db pred abilities = [] then .error .noChannelSatisfiesPredicate
  else
    let candidates := tierRows (accepted db pred abilities) retry
    if weightSumWhere candidates ≤ 0 then .error .emptyRange
    else .ok (db.channels.get? (drawWhere candidates weight))

/-- The branch of `GetRandomSatisfiedChannelWhere` with the memory cache off. -/
def getRandomSatisfiedChannelWhereDB (db : Database) (tenantID group model : String) (retry : ℕ)
    (pred : Option (Channel → Bool)) (weight : Int64) : Except RouteError (Option Channel) :=
  match pred with
  | none => getChannelForTenant db group model retry tenantID weight
  | some pred => getChannelForTenantWhere db group model retry tenantID pred weight

end LurusHub.AbilityRouting
