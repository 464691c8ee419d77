import LurusHub.Pricing
import LurusHub.SettledCost
import LurusHub.Transition

/-! Billing of a realtime session. The readers count tokens into a ledger; each finished response is
moved into the running sum and charged outside the lock. The teardown drains the rest, copies the
sum and writes the consume row, while the readers may still be at work. -/
namespace LurusHub.RealtimeSession
open Decimal QuotaLedger PreConsume PostConsume

structure InputTokenDetails where
  cachedTokens : Int64 := 0
  textTokens : Int64 := 0
  audioTokens : Int64 := 0
  deriving DecidableEq

structure OutputTokenDetails where
  textTokens : Int64 := 0
  audioTokens : Int64 := 0
  deriving DecidableEq

structure RealtimeUsage where
  totalTokens : Int64 := 0
  inputTokens : Int64 := 0
  outputTokens : Int64 := 0
  inputTokenDetails : InputTokenDetails := {}
  outputTokenDetails : OutputTokenDetails := {}
  deriving DecidableEq

def addLocalInput (dst : RealtimeUsage) (text audio : Int64) : RealtimeUsage :=
  { dst with
    totalTokens := dst.totalTokens+(text+audio)
    inputTokens := dst.inputTokens+(text+audio)
    inputTokenDetails := { dst.inputTokenDetails with
      textTokens := dst.inputTokenDetails.textTokens+text
      audioTokens := dst.inputTokenDetails.audioTokens+audio } }

def addLocalOutput (dst : RealtimeUsage) (text audio : Int64) : RealtimeUsage :=
  { dst with
    totalTokens := dst.totalTokens+(text+audio)
    outputTokens := dst.outputTokens+(text+audio)
    outputTokenDetails := {
      textTokens := dst.outputTokenDetails.textTokens+text
      audioTokens := dst.outputTokenDetails.audioTokens+audio } }

def addRealtimeUsage (dst src : RealtimeUsage) : RealtimeUsage where
  totalTokens := dst.totalTokens+src.totalTokens
  inputTokens := dst.inputTokens+src.inputTokens
  outputTokens := dst.outputTokens+src.outputTokens
  inputTokenDetails := {
    cachedTokens := dst.inputTokenDetails.cachedTokens+src.inputTokenDetails.cachedTokens
    textTokens := dst.inputTokenDetails.textTokens+src.inputTokenDetails.textTokens
    audioTokens := dst.inputTokenDetails.audioTokens+src.inputTokenDetails.audioTokens }
  outputTokenDetails := {
    textTokens := dst.outputTokenDetails.textTokens+src.outputTokenDetails.textTokens
    audioTokens := dst.outputTokenDetails.audioTokens+src.outputTokenDetails.audioTokens }

structure RealtimeLedger where
  unbilled : RealtimeUsage := {}
  sum : RealtimeUsage := {}
  deriving DecidableEq

namespace RealtimeLedger

/-- The upstream's figure supersedes what was counted here. -/
def settleUpstream (l : RealtimeLedger) (u : RealtimeUsage) : RealtimeLedger × RealtimeUsage :=
  (⟨{},addRealtimeUsage l.sum u⟩,u)

def settleLocalInput (l : RealtimeLedger) (text audio : Int64) : RealtimeLedger × RealtimeUsage :=
  let billed := addLocalInput l.unbilled text audio
  (⟨{},addRealtimeUsage l.sum billed⟩,billed)

def drainLocal (l : RealtimeLedger) : RealtimeLedger × RealtimeUsage :=
  (⟨{},addRealtimeUsage l.sum l.unbilled⟩,l.unbilled)

end RealtimeLedger

structure Ratios where
  modelPrice : String → Option ℚ≥0
  modelRatio : String → ℚ≥0 × Bool
  (completionRatio audioRatio audioCompletionRatio : String → ℚ≥0)
  contextTiers : String → List Pricing.ContextTier
  groupRatio : String → ℚ≥0
  groupGroupRatio : String → String → Option ℚ≥0
  quotaPerUnit : ℚ≥0

structure TokenDetails where
  (textTokens audioTokens : Int64)

structure QuotaInfo where
  (inputDetails outputDetails : TokenDetails)
  modelName : String
  usePrice : Bool
  modelPrice : ℚ≥0 := 0
  (modelRatio completionRatio groupRatio : ℚ≥0)

/-- The tokens of a call in units of input text, times the ratio of model and group. -/
def tokenAmount (r : Ratios) (info : QuotaInfo) : ℚ :=
  (ofInt64 info.inputDetails.textTokens+ofInt64 info.outputDetails.textTokens*info.completionRatio
    +ofInt64 info.inputDetails.audioTokens*r.audioRatio info.modelName
    +ofInt64 info.outputDetails.audioTokens*r.audioRatio info.modelName*r.audioCompletionRatio info.modelName)
    *(info.groupRatio*info.modelRatio)

def calculateAudioQuota (r : Ratios) (info : QuotaInfo) : Int64 :=
  if info.usePrice then
    let rounded := intPart (info.modelPrice*r.quotaPerUnit*info.groupRatio : ℚ)
    if info.modelPrice ≠ 0 ∧ rounded = 0 then 1 else rounded
  else
    let ratio := info.groupRatio*info.modelRatio
    let quota := tokenAmount r info
    let quota := if ratio ≠ 0 ∧ quota ≤ 0 then 1 else quota
    let rounded := intPart quota
    if ratio ≠ 0 ∧ rounded = 0 then 1 else rounded

structure Request where
  (originModelName upstreamModelName usingGroup userGroup : String)
  pricedAutoGroup : Option String := none
  autoGroup : Option String := none
  openRouterFree : Bool := false
  promptTokens : Int64 := 0

def actualGroupRatio (r : Ratios) (q : Request) (autoGroup : Option String) : ℚ≥0 :=
  let group := autoGroup.getD q.usingGroup
  (r.groupGroupRatio q.userGroup group).getD (r.groupRatio group)

/-- The frozen price. A free variant of OpenRouter without a ratio is priced at 0. -/
def modelPriceHelper (r : Ratios) (q : Request) : Pricing.PriceData :=
  let groupRatio := actualGroupRatio r q q.pricedAutoGroup
  match r.modelPrice q.originModelName with
  | some modelPrice => { usePrice := true, modelPrice, groupRatio, baseRatiosSet := true }
  | none =>
    let (ratio,success) := r.modelRatio q.originModelName
    let modelRatio := if !success && q.openRouterFree then 0 else ratio
    let completionRatio := r.completionRatio q.originModelName
    let base : Pricing.PriceData := {
      modelRatio, completionRatio, groupRatio, baseModelRatio := modelRatio
      baseCompletionRatio := completionRatio, baseRatiosSet := true }
    base.override (Pricing.getContextLengthTier (r.contextTiers q.originModelName) q.promptTokens)

structure WssInfo extends Request where
  usePrice : Bool
  priceData : Pricing.PriceData

/-- The relay freezes a price; `RelayInfo.UsePrice` is set nowhere. -/
def relayInfo (r : Ratios) (q : Request) : WssInfo :=
  { q with usePrice := false, priceData := modelPriceHelper r q }

def liveQuotaInfo (r : Ratios) (info : WssInfo) (usage : RealtimeUsage) : QuotaInfo where
  inputDetails := ⟨usage.inputTokenDetails.textTokens,usage.inputTokenDetails.audioTokens⟩
  outputDetails := ⟨usage.outputTokenDetails.textTokens,usage.outputTokenDetails.audioTokens⟩
  modelName := info.originModelName
  usePrice := info.usePrice
  modelRatio := (r.modelRatio info.originModelName).1
  completionRatio := r.completionRatio info.originModelName
  groupRatio := actualGroupRatio r info.toRequest info.autoGroup

structure ChargeEnv where
  userQuota : Option ℤ
  token : Option (Bool × ℤ)
  post : PostEnv := {}

inductive WssError
  | unreadable
  | userQuota (userQuota need : ℤ)
  | tokenQuota (remain need : ℤ)
  | settle (e : LedgerError)

def preWssConsumeQuota (r : Ratios) (info : WssInfo) (env : ChargeEnv) (usage : RealtimeUsage) (w : World) :
    World × Option WssError :=
  if info.usePrice then (w,none)
  else match env.userQuota,env.token with
    | some userQuota,some (unlimitedQuota,remainQuota) =>
      let quota := (calculateAudioQuota r (liveQuotaInfo r info usage)).toInt
      if userQuota < quota then (w,some (.userQuota userQuota quota))
      else if !unlimitedQuota && remainQuota < quota then (w,some (.tokenQuota remainQuota quota))
      else
        let (w,err) := postConsumeQuota env.post quota 0 w
        (w,err.map .settle)
    | _,_ => (w,some .unreadable)

/-- The price data is resettled for the whole input; the model's price is not passed on. -/
def frozenQuotaInfo (r : Ratios) (info : WssInfo) (usage : RealtimeUsage) : QuotaInfo :=
  let tiers := r.contextTiers info.originModelName
  let priceData := Pricing.resettleContextTier tiers info.priceData usage.inputTokens
  { inputDetails := ⟨usage.inputTokenDetails.textTokens,usage.inputTokenDetails.audioTokens⟩
    outputDetails := ⟨usage.outputTokenDetails.textTokens,usage.outputTokenDetails.audioTokens⟩
    modelName := info.upstreamModelName
    usePrice := priceData.usePrice
    modelRatio := priceData.modelRatio
    completionRatio := ((Pricing.getContextLengthTier tiers usage.inputTokens).bind (·.completionRatio)).getD
      (r.completionRatio info.upstreamModelName)
    groupRatio := priceData.groupRatio }

def rowQuota (r : Ratios) (info : WssInfo) (usage : RealtimeUsage) : ℤ :=
  if usage.totalTokens = 0 then 0 else (calculateAudioQuota r (frozenQuotaInfo r info usage)).toInt

/-- Hands the freeze back and writes the row. -/
def postWssConsumeQuota (r : Ratios) (info : WssInfo) (post : PostEnv) (usage : RealtimeUsage) (w : World) :
    World × ℤ :=
  let frozen := w.info.finalPreConsumedQuota
  let w := if frozen ≠ 0 then (postConsumeQuota post (0-frozen) frozen w).1 else w
  (w,rowQuota r info usage)

inductive Teardown
  | serving
  | drained (usage : RealtimeUsage)
  | closing
  | snapped (sum : RealtimeUsage)
  | logged (quota : ℤ)
  deriving DecidableEq

structure Session where
  world : World
  ledger : RealtimeLedger := {}
  charging : Option RealtimeUsage := none
  readerEnded : Bool := false
  teardown : Teardown := .serving
  billed : List RealtimeUsage := []

inductive Label
  | clientEvent (text audio : Int64)
  | targetEvent (text audio : Int64)
  | responseDone (usage : Option RealtimeUsage) (text audio : Int64)
  | charge (env : ChargeEnv)
  | readerEnds
  | drain
  | drainCharge (env : ChargeEnv)
  | snapshot
  | post (env : PostEnv)

/-- A reader stops at the first charge that fails. -/
def chargeReader (r : Ratios) (info : WssInfo) (env : ChargeEnv) (usage : RealtimeUsage) (s : Session) : Session :=
  match preWssConsumeQuota r info env usage s.world with
  | (world,none) => { s with world, charging := none, billed := s.billed++[usage] }
  | (world,some _) => { s with world, charging := none, readerEnded := true }

/-- The error of the last charge is dropped. -/
def chargeDrained (r : Ratios) (info : WssInfo) (env : ChargeEnv) (usage : RealtimeUsage) (s : Session) : Session :=
  if usage.totalTokens ≠ 0 then
    match preWssConsumeQuota r info env usage s.world with
    | (world,none) => { s with world, teardown := .closing, billed := s.billed++[usage] }
    | (world,some _) => { s with world, teardown := .closing }
  else { s with teardown := .closing }

def Session.readerIdle (s : Session) : Bool := s.charging.isNone && !s.readerEnded

/-- A label that does not fit the state changes nothing. -/
def step (r : Ratios) (info : WssInfo) (s : Session) : Label → Session
  | .clientEvent text audio =>
    { s with ledger := { s.ledger with unbilled := addLocalInput s.ledger.unbilled text audio } }
  | .targetEvent text audio =>
    if s.readerIdle then
      { s with ledger := { s.ledger with unbilled := addLocalOutput s.ledger.unbilled text audio } }
    else s
  | .responseDone usage text audio =>
    if s.readerIdle then
      let (ledger,billed) := match usage with
        | some u => s.ledger.settleUpstream u
        | none => s.ledger.settleLocalInput text audio
      { s with ledger, charging := some billed }
    else s
  | .charge env => s.charging.elim s fun usage => chargeReader r info env usage s
  | .readerEnds => if s.readerIdle then { s with readerEnded := true } else s
  | .drain =>
    match s.teardown with
    | .serving => { s with ledger := s.ledger.drainLocal.1, teardown := .drained s.ledger.drainLocal.2 }
    | _ => s
  | .drainCharge env =>
    match s.teardown with
    | .drained usage => chargeDrained r info env usage s
    | _ => s
  | .snapshot =>
    match s.teardown with
    | .closing => { s with teardown := .snapped s.ledger.sum }
    | _ => s
  | .post env =>
    match s.teardown with
    | .snapped sum =>
      let (world,quota) := postWssConsumeQuota r info env sum s.world
      { s with world, teardown := .logged quota }
    | _ => s

/-- A free model is not frozen at all. -/
def admission (freeModel : Bool) (pre : PreEnv) (estimate : ℤ) (w : World) : World × Option APIError :=
  if freeModel then (w,none) else preConsumeQuota pre estimate w

end LurusHub.RealtimeSession
