import LurusHub.Pricing

/-! The quota of a served text call. `PostClaudeConsumeQuota` settles the calls of the Claude format
and the relay's `postConsumeQuota` all others; the two have to charge the same. Prices and ratios
are exact. -/
namespace LurusHub.TextSettlement
open Decimal Pricing

structure Settings where
  quotaPerUnit : ℚ≥0 := (500000 : ℕ)
  contextTiers : String → List ContextTier := fun _ => []
  defaultModelRatio : String → Option ℚ≥0 := fun _ => none
  searchUnitPrice : String → Option ℚ≥0 := fun _ => none
  calcOpenRouterCacheCreateTokens : Usage → PriceData → Int64 := fun _ _ => 0

structure ResponsesUsageInfo where
  webSearchCalls : Int64 := 0
  fileSearchCalls : Int64 := 0

structure RelayInfo where
  originModelName : String
  rerank : Bool := false
  openRouter : Bool := false
  documents : ℕ := 0
  estimatePromptTokens : Int64 := 0
  responsesUsageInfo : Option ResponsesUsageInfo := none
  priceData : PriceData

structure CallContext where
  claudeWebSearchRequests : Int64 := 0
  imageGenerationCall : Option (String × String) := none

def weighted (n : Int64) (ratio : ℚ≥0) : ℚ := if n = 0 then 0 else ofInt64 n*ratio

/-- The base less a slice of it that is priced on its own. -/
def deducted (slice : Bool) (base : ℚ) (n : Int64) : ℚ :=
  if n ≠ 0 ∧ slice then base-ofInt64 n else base

@[simp] lemma weighted_eq (n : Int64) (ratio : ℚ≥0) : weighted n ratio = ofInt64 n*ratio := by
  unfold weighted
  split
  · next h => simp [h]
  · rfl

lemma deducted_eq (slice : Bool) (base : ℚ) (n : Int64) :
    deducted slice base n = base-if slice then ofInt64 n else 0 := by
  unfold deducted
  by_cases h : n = 0
  · simp [h]
  · cases slice <;> simp [h]

def remainingCacheCreationTokens (u : Usage) (cacheCreationTokens : Int64) : Int64 :=
  let remaining := cacheCreationTokens-u.claudeCacheCreation5mTokens-u.claudeCacheCreation1hTokens
  if remaining < 0 then 0 else remaining

/-- The floor before rounding: a chargeable call is not free. -/
def liftNonpositive (chargeable : Bool) (amount : ℚ) : ℚ :=
  if chargeable ∧ amount ≤ 0 then 1 else amount

/-- The floor after rounding. A call without tokens is taken for an upstream error. -/
def settledQuota (noTokens chargeable : Bool) (amount : ℚ) : Int64 :=
  if noTokens then 0
  else if chargeable ∧ intPart amount = 0 then 1
  else intPart amount

/-- A price for a thousand calls, for one; the quotient is kept to 16 places. -/
def perThousand (x : ℚ) : ℚ := divRound 16 x 1000

section claude
variable (s : Settings) (ctx : CallContext) (info : RelayInfo) (u : Usage)

def hasCustomModelRatio (modelName : String) (currentRatio : ℚ≥0) : Bool :=
  match s.defaultModelRatio modelName with
  | none => true
  | some defaultRatio => currentRatio ≠ defaultRatio

def resettled : PriceData :=
  resettleContextTier (s.contextTiers info.originModelName) info.priceData u.asOpenAIWire.promptTokens

def claudeCalculateQuota (usePrice : Bool)
    (promptTokens cacheTokens cacheCreationTokens5m cacheCreationTokens1h
      remainingCacheCreationTokens completionTokens : Int64)
    (cacheRatio cacheCreationRatio5m cacheCreationRatio1h cacheCreationRatio completionRatio
      groupRatio modelRatio modelPrice : ℚ≥0) : ℚ :=
  if usePrice then modelPrice*s.quotaPerUnit*groupRatio
  else
    let ratio : ℚ := modelRatio*groupRatio
    let promptQuota : ℚ := ofInt64 promptTokens+ofInt64 cacheTokens*cacheRatio
      +ofInt64 cacheCreationTokens5m*cacheCreationRatio5m
      +ofInt64 cacheCreationTokens1h*cacheCreationRatio1h
      +ofInt64 remainingCacheCreationTokens*cacheCreationRatio
    let completionQuota : ℚ := ofInt64 completionTokens*completionRatio
    (promptQuota+completionQuota)*ratio

/-- OpenRouter does not report cache writes; they are inferred from its cost field where the
operator has not set a price. -/
def cacheCreation (p : PriceData) : Int64 × ℚ≥0 :=
  let tokens := u.promptTokensDetails.cachedCreationTokens
  let reported := (tokens,p.cacheCreationRatioForWire u.promptTokensIncludeCached)
  if u.promptTokensIncludeCached && info.openRouter && tokens==0 && p.cacheCreationRatio ≠ 1
      && !u.costIsIntZero && !(p.usePrice || hasCustomModelRatio s info.originModelName p.modelRatio) then
    let maybe := s.calcOpenRouterCacheCreateTokens u p
    if 0 ≤ maybe ∧ maybe ≤ u.promptTokens-u.promptTokensDetails.cachedTokens then
      (maybe,p.cacheCreationRatio)
    else reported
  else reported

/-- The prompt tokens at the plain input price, subtracted as machine words. -/
def billablePromptTokens (cacheCreationTokens : Int64) : Int64 :=
  if u.promptTokensIncludeCached then
    u.promptTokens-u.promptTokensDetails.cachedTokens-cacheCreationTokens
  else u.promptTokens

def claudeWebSearchFee (p : PriceData) : ℚ :=
  if 0 < ctx.claudeWebSearchRequests then
    perThousand getClaudeWebSearchPricePerThousand*p.groupRatio*s.quotaPerUnit*ofInt64 ctx.claudeWebSearchRequests
  else 0

/-- The call itself, for the given cache writes at the given ratio. -/
def claudeAmount (p : PriceData) (cacheCreationTokens : Int64) (cacheCreationRatio : ℚ≥0) : ℚ :=
  claudeCalculateQuota s p.usePrice (billablePromptTokens u cacheCreationTokens)
    u.promptTokensDetails.cachedTokens u.claudeCacheCreation5mTokens u.claudeCacheCreation1hTokens
    (remainingCacheCreationTokens u cacheCreationTokens) u.completionTokens
    p.cacheRatio p.cacheCreation5mRatio p.cacheCreation1hRatio cacheCreationRatio p.completionRatio
    p.groupRatio p.modelRatio p.modelPrice

def postClaudeConsumeQuota : Int64 :=
  let p := resettled s info u
  let (cacheCreationTokens,cacheCreationRatio) := cacheCreation s info u p
  let calculateQuota := claudeAmount s u p cacheCreationTokens cacheCreationRatio
  let amount := liftNonpositive p.chargeable calculateQuota+claudeWebSearchFee s ctx p
  settledQuota (billablePromptTokens u cacheCreationTokens+u.completionTokens==0) p.chargeable amount

end claude

section compatible
variable (s : Settings) (ctx : CallContext) (info : RelayInfo) (p : PriceData)

/-- Rerank vendors report only a total. -/
def promptTokensOf (u : Usage) : Int64 :=
  if info.rerank ∧ u.promptTokens = 0 ∧ u.completionTokens = 0 ∧ 0 < u.totalTokens then u.totalTokens
  else u.promptTokens

def webSearchFee : ℚ :=
  match info.responsesUsageInfo with
  | some tools =>
    if 0 < tools.webSearchCalls then
      perThousand (getWebSearchPricePerThousand info.originModelName*ofInt64 tools.webSearchCalls)
        *p.groupRatio*s.quotaPerUnit
    else 0
  | none =>
    if hasSuffix info.originModelName "search-preview" then
      perThousand (getWebSearchPricePerThousand info.originModelName)*p.groupRatio*s.quotaPerUnit
    else 0

def fileSearchFee : ℚ :=
  match info.responsesUsageInfo with
  | some tools =>
    if 0 < tools.fileSearchCalls then
      perThousand (getFileSearchPricePerThousand*ofInt64 tools.fileSearchCalls)*p.groupRatio*s.quotaPerUnit
    else 0
  | none => 0

def imageGenerationFee : ℚ :=
  match ctx.imageGenerationCall with
  | some (quality,size) => getGPTImage1PriceOnceCall quality size*p.groupRatio*s.quotaPerUnit
  | none => 0

def audioPriced (u : Usage) : Bool :=
  u.promptTokensDetails.audioTokens ≠ 0 && decide (0 < getGeminiInputAudioPricePerMillionTokens info.originModelName)

def audioInputFee (u : Usage) : ℚ :=
  if audioPriced info u then
    divRound 16 (getGeminiInputAudioPricePerMillionTokens info.originModelName : ℚ) 1000000
      *ofInt64 u.promptTokensDetails.audioTokens*p.groupRatio*s.quotaPerUnit
  else 0

def pricedTokens (promptTokens : Int64) (u : Usage) : ℚ :=
  let d := u.promptTokensDetails
  let included := u.promptTokensIncludeCached
  let baseTokens := deducted included (ofInt64 promptTokens) d.cachedTokens
  let baseTokens := deducted included baseTokens d.cachedCreationTokens
  let baseTokens := deducted true baseTokens d.imageTokens
  let baseTokens := deducted (audioPriced info u) baseTokens d.audioTokens
  let cachedCreationTokensWithRatio : ℚ :=
    ofInt64 u.claudeCacheCreation5mTokens*p.cacheCreation5mRatio
      +ofInt64 u.claudeCacheCreation1hTokens*p.cacheCreation1hRatio
      +ofInt64 (remainingCacheCreationTokens u d.cachedCreationTokens)*p.cacheCreationRatioForWire included
  let promptQuota := baseTokens+weighted d.cachedTokens p.cacheRatio
    +weighted d.imageTokens p.imageRatio+cachedCreationTokensWithRatio
  promptQuota+ofInt64 u.completionTokens*p.completionRatio

def perCallAmount : ℚ := p.modelPrice*s.quotaPerUnit*p.groupRatio

lemma perCallAmount_nonneg : 0 ≤ perCallAmount s p := by
  have hprice := p.modelPrice.coe_nonneg
  have hunit := s.quotaPerUnit.coe_nonneg
  have hgro := p.groupRatio.coe_nonneg
  exact mul_nonneg (mul_nonneg hprice hunit) hgro

def baseAmount (promptTokens : Int64) (u : Usage) : ℚ :=
  if p.usePrice then perCallAmount s p
  else liftNonpositive p.chargeable
    (pricedTokens info p promptTokens u*(p.modelRatio*p.groupRatio))

def toolFees (u : Usage) : ℚ :=
  webSearchFee s info p+claudeWebSearchFee s ctx p+fileSearchFee s info p
    +(if p.usePrice then 0 else audioInputFee s info p u)+imageGenerationFee s ctx p

/-- Billing units of a rerank call, one for each hundred documents begun. -/
def searchUnits (documents : ℕ) : ℕ := (documents+99)/100

def searchUnitPriced : Option ℚ≥0 :=
  if info.rerank then s.searchUnitPrice info.originModelName else none

/-- The quota the relay's `postConsumeQuota` settles. A call without a usage record is
charged for its estimated prompt. -/
def postConsumeQuota (usage : Option Usage) : Int64 :=
  let u := usage.getD
    { promptTokens := info.estimatePromptTokens, totalTokens := info.estimatePromptTokens }
  let promptTokens := promptTokensOf info u
  let p := resettled s info u
  let amount := p.otherRatios.foldl (fun (amount : ℚ) ratio => amount*(ratio.2 : ℚ))
    (baseAmount s info p promptTokens u+toolFees s ctx info p u)
  let noTokens := promptTokens+u.completionTokens==0
  match searchUnitPriced s info with
  | some price => settledQuota false p.chargeable
      (price*searchUnits info.documents*p.groupRatio*s.quotaPerUnit)
  | none => settledQuota noTokens p.chargeable amount

end compatible

def rawTotal (u : Usage) : Int64 := u.promptTokens+u.completionTokens

def billableTotal (u : Usage) : Int64 :=
  billablePromptTokens u u.promptTokensDetails.cachedCreationTokens+u.completionTokens

def uncachedPrompt (u : Usage) : ℤ :=
  u.promptTokens.toInt-u.promptTokensDetails.cachedTokens.toInt
    -u.promptTokensDetails.cachedCreationTokens.toInt

/-- The Claude path's subtraction does not leave the machine word. -/
def BillableFits (u : Usage) : Prop :=
  u.promptTokensIncludeCached = true → -2^63 ≤ uncachedPrompt u ∧ uncachedPrompt u < 2^63

/-- A tool other than Claude's web search is charged for. -/
def otherToolFees (ctx : CallContext) (info : RelayInfo) : Bool :=
  ctx.imageGenerationCall.isSome || match info.responsesUsageInfo with
    | some tools => decide (0 < tools.webSearchCalls) || decide (0 < tools.fileSearchCalls)
    | none => hasSuffix info.originModelName "search-preview"

structure PlainText (ctx : CallContext) (info : RelayInfo) (u : Usage) : Prop where
  image : u.promptTokensDetails.imageTokens = 0
  audio : u.promptTokensDetails.audioTokens = 0
  tools : otherToolFees ctx info = false
  ratios : info.priceData.otherRatios = []
  notRerank : info.rerank = false
  notOpenRouter : info.openRouter = false

lemma otherToolFees_fees (h : otherToolFees ctx info = false) :
    webSearchFee s info p = 0 ∧ fileSearchFee s info p = 0 ∧ imageGenerationFee s ctx p = 0 := by
  obtain ⟨hima,htoo⟩ := Bool.or_eq_false_iff.mp h
  have hnone := Option.not_isSome_iff_eq_none.mp (Bool.eq_false_iff.mp hima)
  unfold webSearchFee fileSearchFee imageGenerationFee
  rw [hnone]
  cases htool : info.responsesUsageInfo with
  | none =>
    rw [htool] at htoo
    simp [htoo]
  | some tools =>
    rw [htool] at htoo
    obtain ⟨hweb,hfile⟩ := Bool.or_eq_false_iff.mp htoo
    simp [decide_eq_false_iff_not.mp hweb,decide_eq_false_iff_not.mp hfile]

lemma audioPriced_zero (h : u.promptTokensDetails.audioTokens = 0) : audioPriced info u = false := by
  simp [audioPriced,h]

lemma toolFees_plain (h : otherToolFees ctx info = false) (haud : u.promptTokensDetails.audioTokens = 0) :
    toolFees s ctx info p u = claudeWebSearchFee s ctx p := by
  obtain ⟨hweb,hfile,hima⟩ := otherToolFees_fees (s:=s) (p:=p) h
  simp [toolFees,audioInputFee,hweb,hfile,hima,audioPriced_zero haud]

lemma ofInt64_billable (hfits : BillableFits u) :
    (ofInt64 (billablePromptTokens u u.promptTokensDetails.cachedCreationTokens) : ℚ) =
      ofInt64 u.promptTokens
        -(if u.promptTokensIncludeCached then ofInt64 u.promptTokensDetails.cachedTokens else 0)
        -(if u.promptTokensIncludeCached then ofInt64 u.promptTokensDetails.cachedCreationTokens else 0) := by
  unfold billablePromptTokens
  by_cases hinc : u.promptTokensIncludeCached
  · obtain ⟨hlo,hhi⟩ := hfits hinc
    simp [hinc,ofInt64_sub_sub hlo hhi]
  · simp [hinc]

lemma claudeAmount_tokens (info : RelayInfo) (huse : p.usePrice = false) (hfits : BillableFits u)
    (hima : u.promptTokensDetails.imageTokens = 0) (haud : u.promptTokensDetails.audioTokens = 0) :
    claudeAmount s u p u.promptTokensDetails.cachedCreationTokens
        (p.cacheCreationRatioForWire u.promptTokensIncludeCached) =
      pricedTokens info p u.promptTokens u*(p.modelRatio*p.groupRatio) := by
  simp only [claudeAmount,claudeCalculateQuota,pricedTokens,huse,deducted_eq,weighted_eq,hima,
    audioPriced_zero haud,ofInt64_billable hfits,ofInt64_zero]
  simp only [Bool.false_eq_true,if_false,if_true]
  ring

lemma claudeAmount_perCall (huse : p.usePrice = true) (tokens : Int64) (ratio : ℚ≥0) :
    claudeAmount s u p tokens ratio = perCallAmount s p := by
  simp [claudeAmount,claudeCalculateQuota,perCallAmount,huse]

lemma claudeWebSearchFee_free (h : s.quotaPerUnit = 0 ∨ p.groupRatio = 0) :
    claudeWebSearchFee s ctx p = 0 := by
  unfold claudeWebSearchFee
  split
  · cases h with
    | inl h | inr h => simp [h]
  · rfl

theorem settledQuota_perCall (huse : p.usePrice = true) : settledQuota noTokens p.chargeable
        (liftNonpositive p.chargeable (perCallAmount s p)+claudeWebSearchFee s ctx p) =
      settledQuota noTokens p.chargeable (perCallAmount s p+claudeWebSearchFee s ctx p) := by
  by_cases hlift : p.chargeable ∧ perCallAmount s p ≤ 0
  · obtain ⟨hcharge,hle⟩ := hlift
    have hprice : p.modelPrice ≠ 0 := by
      simpa [PriceData.chargeable,chargeableInputNonZero,huse] using hcharge
    have hzero : perCallAmount s p = 0 := le_antisymm hle (perCallAmount_nonneg s p)
    have hunit : s.quotaPerUnit = 0 ∨ p.groupRatio = 0 := by
      simpa [perCallAmount,hprice] using hzero
    have hfee : claudeWebSearchFee s ctx p = 0 := claudeWebSearchFee_free hunit
    simp [liftNonpositive,settledQuota,hcharge,hzero,hfee]
  · rw [liftNonpositive,if_neg hlift]

lemma postClaudeConsumeQuota_plain (s : Settings) (ctx : CallContext) (u : Usage)
    (hrou : info.openRouter = false) :
    postClaudeConsumeQuota s ctx info u =
      let p := resettled s info u
      settledQuota (billableTotal u==0) p.chargeable (liftNonpositive p.chargeable
        (claudeAmount s u p u.promptTokensDetails.cachedCreationTokens
          (p.cacheCreationRatioForWire u.promptTokensIncludeCached))+claudeWebSearchFee s ctx p) := by
  have hrep (p : PriceData) : cacheCreation s info u p= (u.promptTokensDetails.cachedCreationTokens,
        p.cacheCreationRatioForWire u.promptTokensIncludeCached) := by
    simp [cacheCreation,hrou]
  simp [postClaudeConsumeQuota,hrep,billableTotal]

lemma postConsumeQuota_tokens (hratios : info.priceData.otherRatios = [])
    (hunits : searchUnitPriced s info = none) :
    postConsumeQuota s ctx info (some u) =
      let p := resettled s info u
      settledQuota (promptTokensOf info u+u.completionTokens==0) p.chargeable
        (baseAmount s info p (promptTokensOf info u) u+toolFees s ctx info p u) := by
  simp [postConsumeQuota,hunits,resettled,hratios]

lemma postConsumeQuota_plain (hplain : PlainText ctx info u) : postConsumeQuota s ctx info (some u) =
      let p := resettled s info u
      settledQuota (rawTotal u==0) p.chargeable
        (baseAmount s info p u.promptTokens u+claudeWebSearchFee s ctx p) := by
  have hprompt : promptTokensOf info u = u.promptTokens := by simp [promptTokensOf,hplain.notRerank]
  have hunits : searchUnitPriced s info = none := by simp [searchUnitPriced,hplain.notRerank]
  have hfees (p : PriceData) : toolFees s ctx info p u = claudeWebSearchFee s ctx p :=
    toolFees_plain hplain.tools hplain.audio
  simp only [postConsumeQuota_tokens hplain.ratios hunits,hprompt,hfees,rawTotal]

theorem settledQuota_agree (hplain : PlainText ctx info u) (hfits : p.usePrice = true ∨ BillableFits u) :
    settledQuota noTokens p.chargeable (liftNonpositive p.chargeable
        (claudeAmount s u p u.promptTokensDetails.cachedCreationTokens
          (p.cacheCreationRatioForWire u.promptTokensIncludeCached))+claudeWebSearchFee s ctx p) =
      settledQuota noTokens p.chargeable
        (baseAmount s info p u.promptTokens u+claudeWebSearchFee s ctx p) := by
  cases huse : p.usePrice with
  | true =>
    rw [claudeAmount_perCall huse,settledQuota_perCall huse]
    simp [baseAmount,huse]
  | false =>
    have hfits := hfits.resolve_left (by simp [huse])
    rw [claudeAmount_tokens info huse hfits hplain.image hplain.audio]
    simp [baseAmount,huse]

theorem settlements_agree (s : Settings) (ctx : CallContext) (info : RelayInfo) (u : Usage)
    (hplain : PlainText ctx info u) (hfits : info.priceData.usePrice = true ∨ BillableFits u) :
    ((billableTotal u = 0 ↔ rawTotal u = 0) →
      postClaudeConsumeQuota s ctx info u = postConsumeQuota s ctx info (some u)) ∧
    (billableTotal u = 0 → postClaudeConsumeQuota s ctx info u = 0) ∧
    (rawTotal u = 0 → postConsumeQuota s ctx info (some u) = 0) := by
  have hcla := postClaudeConsumeQuota_plain s ctx u hplain.notOpenRouter
  have hcom := postConsumeQuota_plain (s:=s) hplain
  have hfits : (resettled s info u).usePrice = true ∨ BillableFits u := by
    rwa [resettled,resettleContextTier_usePrice]
  rw [hcla,hcom]
  refine ⟨fun hgua => ?_,fun h => by simp [settledQuota,h],fun h => by simp [settledQuota,h]⟩
  have hguard : (billableTotal u==0) = (rawTotal u==0) := by
    rw [Bool.eq_iff_iff,beq_iff_eq,beq_iff_eq]
    exact hgua
  rw [hguard]
  exact settledQuota_agree hplain hfits

def claudeModel : RelayInfo where
  originModelName := "claude-sonnet"
  priceData := { modelRatio := .divNat 3 2, completionRatio := (5 : ℕ), cacheRatio := .divNat 1 10,
                 cacheCreationRatio := .divNat 5 4, cacheCreation5mRatio := .divNat 5 4,
                 cacheCreation1hRatio := (2 : ℕ) }

theorem settlements_agree_searched :
    let u : Usage :=
      { promptTokens := 900, completionTokens := 40, promptTokensIncludeCached := true,
        promptTokensDetails := { cachedTokens := 500, cachedCreationTokens := 300 },
        claudeCacheCreation5mTokens := 100, claudeCacheCreation1hTokens := 50 }
    let ctx : CallContext := { claudeWebSearchRequests := 2 }
    postClaudeConsumeQuota {} ctx claudeModel u = postConsumeQuota {} ctx claudeModel (some u) ∧
      postConsumeQuota {} ctx claudeModel (some u) = 11144 := by
  refine ⟨(settlements_agree {} _ claudeModel _ ⟨rfl,rfl,by decide,rfl,rfl,rfl⟩ (.inr ?_)).1 ?_,?_⟩
  · intro _
    decide
  · decide
  · decide +kernel

theorem settlements_differ :
    let overCached : Usage :=
      { promptTokensIncludeCached := true, promptTokensDetails := { cachedTokens := 10 } }
    PlainText {} claudeModel overCached ∧ billableTotal overCached ≠ 0 ∧
      postClaudeConsumeQuota {} {} claudeModel overCached = 1 ∧
      postConsumeQuota {} {} claudeModel (some overCached) = 0 := by
  refine ⟨⟨rfl,rfl,by decide,rfl,rfl,rfl⟩,?_⟩
  decide +kernel

end LurusHub.TextSettlement
