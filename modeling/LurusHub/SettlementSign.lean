import LurusHub.RealtimeSession
import LurusHub.TextSettlement
import Mathlib.Tactic.Positivity

/-! The sign of a settled quota. Each settlement rounds an exact amount to 64 bits; a negative word
would be paid out. The floors make a chargeable call worth one unit at least, so the sign bit
decides, and in the audio path the group's ratio. What a call costs is stated as a list of counts
with their prices. -/
namespace LurusHub.SettlementSign
open Decimal Pricing TextSettlement RealtimeSession Int64

/-- Nothing is paid out, and a chargeable call with tokens costs something. -/
def NeverCredits (quota : Int64) (chargeable noTokens : Bool) : Prop :=
  0 ≤ quota ∧ (chargeable = true → noTokens = false → 1 ≤ quota)
  deriving Decidable

lemma settledQuota_neverCredits (noTokens chargeable : Bool) (amount : ℚ) :
    NeverCredits (settledQuota noTokens chargeable amount) chargeable noTokens ↔
      noTokens ∨ 0 ≤ intPart amount := by
  cases noTokens with
  | true => simp [NeverCredits,settledQuota]
  | false =>
    simp only [NeverCredits,settledQuota]
    cases chargeable with
    | false => simp
    | true => grind

section items
variable (s : Settings) (info : TextSettlement.RelayInfo) (p : PriceData) (u : Usage)

/-- Counts, each times the price of one. -/
def cost (items : List (ℚ × ℚ)) : ℚ := (items.map fun item => item.1*item.2).sum

/-- The tokens of a record with their ratios; `cacheCreation` are the cache writes and their ratio. -/
def tokenItems (promptTokens : ℚ) (cacheCreation : Int64 × ℚ≥0) : List (ℚ × ℚ) :=
  [(promptTokens,1),(ofInt64 u.promptTokensDetails.cachedTokens,p.cacheRatio),
    (ofInt64 u.claudeCacheCreation5mTokens,p.cacheCreation5mRatio),
    (ofInt64 u.claudeCacheCreation1hTokens,p.cacheCreation1hRatio),
    (ofInt64 (remainingCacheCreationTokens u cacheCreation.1),cacheCreation.2),
    (ofInt64 u.completionTokens,p.completionRatio)]

def claudeItems : List (ℚ × ℚ) :=
  let creation := cacheCreation s info u p
  tokenItems p u (ofInt64 (billablePromptTokens u creation.1)) creation

def relayItems : List (ℚ × ℚ) :=
  let d := u.promptTokensDetails
  let included := u.promptTokensIncludeCached
  let plain : ℚ := ofInt64 (promptTokensOf info u)
    -(if included then ofInt64 d.cachedTokens+ofInt64 d.cachedCreationTokens else 0)-ofInt64 d.imageTokens
    -(if audioPriced info u then ofInt64 d.audioTokens else 0)
  (ofInt64 d.imageTokens,(p.imageRatio : ℚ))::
    tokenItems p u plain (d.cachedCreationTokens,p.cacheCreationRatioForWire included)

/-- A call by its price, or by its tokens with the floor of a chargeable call. -/
def callCost (items : List (ℚ × ℚ)) : ℚ :=
  if p.usePrice then p.modelPrice*s.quotaPerUnit*p.groupRatio
  else liftNonpositive p.chargeable (cost items*(p.modelRatio*p.groupRatio))

lemma baseAmount_eq : baseAmount s info p (promptTokensOf info u) u = callCost s p (relayItems info p u) := by
  have htokens : pricedTokens info p (promptTokensOf info u) u = cost (relayItems info p u) := by
    simp only [pricedTokens,deducted_eq,weighted_eq,cost,relayItems,tokenItems]
    cases u.promptTokensIncludeCached <;> simp <;> ring
  rw [baseAmount,callCost,htokens]
  rfl

end items

section relay
variable (s : Settings) (ctx : CallContext) (info : TextSettlement.RelayInfo)

/-- The record the relay settles: the reported one, or the estimated prompt. -/
def recordOf (usage : Option Usage) : Usage :=
  usage.getD { promptTokens := info.estimatePromptTokens, totalTokens := info.estimatePromptTokens }

def relayAmount (usage : Option Usage) : ℚ :=
  let u := recordOf info usage
  let p := resettled s info u
  match searchUnitPriced s info with
  | some price => price*searchUnits info.documents*p.groupRatio*s.quotaPerUnit
  | none => p.otherRatios.foldl (fun (amount : ℚ) ratio => amount*(ratio.2 : ℚ))
      (baseAmount s info p (promptTokensOf info u) u+toolFees s ctx info p u)

/-- The guard on an empty answer; search units are charged without tokens. -/
def relayEmpty (usage : Option Usage) : Bool :=
  let u := recordOf info usage
  (searchUnitPriced s info).isNone && promptTokensOf info u+u.completionTokens==0

/-- Audio tokens with a price of their own, in a negative number. -/
def negativeAudio (usage : Option Usage) : Bool :=
  let u := recordOf info usage
  (searchUnitPriced s info).isNone && !info.priceData.usePrice && audioPriced info u &&
    decide (u.promptTokensDetails.audioTokens < 0)

/-- What the call costs: its search units, or its items and the fees of its tools. -/
def relayCost (usage : Option Usage) : ℚ :=
  let u := recordOf info usage
  let p := resettled s info u
  match searchUnitPriced s info with
  | some price => price*searchUnits info.documents*p.groupRatio*s.quotaPerUnit
  | none => p.otherRatios.foldl (fun (amount : ℚ) ratio => amount*(ratio.2 : ℚ))
      (callCost s p (relayItems info p u)+toolFees s ctx info p u)

/-- The answer is empty, or the call costs less than a word holds, and negative audio does not outweigh
the rest. -/
def RelayCharged (usage : Option Usage) : Prop :=
  relayEmpty s info usage = true ∨ relayCost s ctx info usage < 2^63-1/2 ∧
    (negativeAudio s info usage = true → -1/2 < relayCost s ctx info usage)

lemma relayAmount_eq (usage : Option Usage) : relayAmount s ctx info usage = relayCost s ctx info usage := by
  simp only [relayAmount,relayCost,baseAmount_eq]

lemma postConsumeQuota_settled (usage : Option Usage) :
    postConsumeQuota s ctx info usage = settledQuota (relayEmpty s info usage)
      (resettled s info (recordOf info usage)).chargeable (relayAmount s ctx info usage) := by
  simp only [postConsumeQuota,relayEmpty,relayAmount,recordOf]
  cases searchUnitPriced s info <;> simp

end relay

/-! The amounts are not negative, up to the fee of audio input. -/

lemma ofInt64_nonneg {n : Int64} (h : 0 ≤ n) : (0 : ℚ) ≤ ofInt64 n := by
  rw [le_iff_toInt_le] at h
  exact Int.cast_nonneg h

lemma divRound_nonneg {places : ℕ} {x y : ℚ} (hx : 0 ≤ x) (hy : 0 ≤ y) : 0 ≤ divRound places x y := by
  have hquot : 0 ≤ x/y*10^places := by positivity
  have hround : (0 : ℤ) ≤ roundHalfAway (x/y*10^places) := by
    rw [roundHalfAway,if_pos hquot]
    exact Int.floor_nonneg.mpr (by linarith)
  exact div_nonneg (Int.cast_nonneg hround) (by positivity)

lemma perThousand_nonneg {x : ℚ} (hx : 0 ≤ x) : 0 ≤ perThousand x := divRound_nonneg hx (by norm_num)

lemma liftNonpositive_nonneg {chargeable : Bool} {amount : ℚ} (h : chargeable = false → 0 ≤ amount) :
    0 ≤ liftNonpositive chargeable amount := by
  unfold liftNonpositive
  split
  · exact zero_le_one
  · next hno =>
    cases chargeable with
    | false => exact h rfl
    | true =>
      have hpos : ¬ amount ≤ 0 := fun hle => hno ⟨rfl,hle⟩
      linarith

section fees
variable (s : Settings) (ctx : CallContext) (info : TextSettlement.RelayInfo) (p : PriceData) (u : Usage)

lemma claudeWebSearchFee_nonneg : 0 ≤ claudeWebSearchFee s ctx p := by
  unfold claudeWebSearchFee
  split
  · next h =>
    have hcalls := ofInt64_nonneg (Int64.le_of_lt h)
    have hprice := perThousand_nonneg getClaudeWebSearchPricePerThousand.coe_nonneg
    positivity
  · exact le_rfl

lemma webSearchFee_nonneg : 0 ≤ webSearchFee s info p := by
  have hprice := (getWebSearchPricePerThousand info.originModelName).coe_nonneg
  unfold webSearchFee
  split
  · next tools _ =>
    split
    · next h =>
      have hcalls := ofInt64_nonneg (Int64.le_of_lt h)
      have hfee := perThousand_nonneg (mul_nonneg hprice hcalls)
      positivity
    · exact le_rfl
  · split
    · have hfee := perThousand_nonneg hprice
      positivity
    · exact le_rfl

lemma fileSearchFee_nonneg : 0 ≤ fileSearchFee s info p := by
  unfold fileSearchFee
  split
  · next tools _ =>
    split
    · next h =>
      have hcalls := ofInt64_nonneg (Int64.le_of_lt h)
      have hfee := perThousand_nonneg (mul_nonneg getFileSearchPricePerThousand.coe_nonneg hcalls)
      positivity
    · exact le_rfl
  · exact le_rfl

lemma imageGenerationFee_nonneg : 0 ≤ imageGenerationFee s ctx p := by
  unfold imageGenerationFee
  split
  · positivity
  · exact le_rfl

variable {u} in
lemma audioInputFee_nonneg (haud : audioPriced info u = true → 0 ≤ u.promptTokensDetails.audioTokens) :
    0 ≤ audioInputFee s info p u := by
  have hprice : (0 : ℚ) ≤ divRound 16 (getGeminiInputAudioPricePerMillionTokens info.originModelName : ℚ) 1000000 :=
    divRound_nonneg (NNRat.coe_nonneg _) (by norm_num)
  unfold audioInputFee
  split
  · next hpriced =>
    have hcount : (0 : ℚ) ≤ ofInt64 u.promptTokensDetails.audioTokens := ofInt64_nonneg (haud hpriced)
    positivity
  · exact le_rfl

variable {u} in
lemma toolFees_nonneg
    (haud : p.usePrice = false → audioPriced info u = true → 0 ≤ u.promptTokensDetails.audioTokens) :
    0 ≤ toolFees s ctx info p u := by
  have hweb := webSearchFee_nonneg s info p
  have hcla := claudeWebSearchFee_nonneg s ctx p
  have hfile := fileSearchFee_nonneg s info p
  have hima := imageGenerationFee_nonneg s ctx p
  have haudioFee : 0 ≤ if p.usePrice then 0 else audioInputFee s info p u := by
    split
    · exact le_rfl
    · next huse => exact audioInputFee_nonneg s info p (haud (by simpa using huse))
  unfold toolFees
  linarith

lemma not_chargeable (huse : p.usePrice = false) (h : p.chargeable = false) : p.modelRatio = 0 := by
  simpa [PriceData.chargeable,chargeableInputNonZero,huse] using h

lemma baseAmount_nonneg (promptTokens : Int64) : 0 ≤ baseAmount s info p promptTokens u := by
  unfold baseAmount
  split
  · exact perCallAmount_nonneg s p
  · next huse =>
    refine liftNonpositive_nonneg fun hfree => ?_
    simp [not_chargeable p (by simpa using huse) hfree]

lemma foldl_ratios_nonneg {amount : ℚ} (ratios : List (String × ℚ≥0)) (h : 0 ≤ amount) :
    0 ≤ ratios.foldl (fun (amount : ℚ) ratio => amount*(ratio.2 : ℚ)) amount := by
  induction ratios generalizing amount with
  | nil => exact h
  | cons ratio ratios ih => exact ih (mul_nonneg h ratio.2.coe_nonneg)

end fees

section amounts
variable (s : Settings) (ctx : CallContext) (info : TextSettlement.RelayInfo)

lemma relayCost_nonneg {usage : Option Usage} (haud : negativeAudio s info usage = false) :
    0 ≤ relayCost s ctx info usage := by
  rw [← relayAmount_eq]
  unfold relayAmount
  cases hunits : searchUnitPriced s info with
  | some price => positivity
  | none =>
    have hbase := baseAmount_nonneg s info (resettled s info (recordOf info usage)) (recordOf info usage)
      (promptTokensOf info (recordOf info usage))
    have hfees := toolFees_nonneg s ctx info (resettled s info (recordOf info usage)) (u:=recordOf info usage)
      fun huse hpriced => by
        rw [resettled,resettleContextTier_usePrice] at huse
        simpa [negativeAudio,hunits,huse,hpriced] using haud
    exact foldl_ratios_nonneg _ (by linarith)

theorem relayAmount_nonneg
    (haud : info.priceData.usePrice ∨ 0 ≤ (recordOf info usage).promptTokensDetails.audioTokens) :
    0 ≤ relayAmount s ctx info usage := by
  rw [relayAmount_eq]
  refine relayCost_nonneg s ctx info ?_
  rcases haud with huse | haud
  · simp [negativeAudio,huse]
  · simp [negativeAudio,Int64.not_lt.mpr haud]

/-- The cache writes the Claude path settles with. -/
def claudeCreation (u : Usage) : Int64 × ℚ≥0 := cacheCreation s info u (resettled s info u)

def claudeTotal (u : Usage) : ℚ :=
  let p := resettled s info u
  let creation := claudeCreation s info u
  liftNonpositive p.chargeable (claudeAmount s u p creation.1 creation.2)+claudeWebSearchFee s ctx p

def claudeCost (u : Usage) : ℚ :=
  let p := resettled s info u
  callCost s p (claudeItems s info p u)+claudeWebSearchFee s ctx p

def claudeEmpty (u : Usage) : Bool :=
  billablePromptTokens u (claudeCreation s info u).1+u.completionTokens==0

def ClaudeCharged (u : Usage) : Prop := claudeEmpty s info u = true ∨ claudeCost s ctx info u < 2^63-1/2

lemma postClaudeConsumeQuota_settled (u : Usage) :
    postClaudeConsumeQuota s ctx info u = settledQuota (claudeEmpty s info u) (resettled s info u).chargeable
      (claudeTotal s ctx info u) := rfl

lemma claudeAmount_eq (p : PriceData) (u : Usage) (creation : Int64 × ℚ≥0) (huse : p.usePrice = false) :
    claudeAmount s u p creation.1 creation.2 =
      cost (tokenItems p u (ofInt64 (billablePromptTokens u creation.1)) creation)*(p.modelRatio*p.groupRatio) := by
  simp [claudeAmount,claudeCalculateQuota,huse,cost,tokenItems,add_assoc]

lemma callCost_nonneg (p : PriceData) (items : List (ℚ × ℚ)) : 0 ≤ callCost s p items := by
  unfold callCost
  split
  · positivity
  · next huse =>
    refine liftNonpositive_nonneg fun hfree => ?_
    simp [not_chargeable p (by simpa using huse) hfree]

lemma claudeTotal_eq (u : Usage) : claudeTotal s ctx info u = claudeCost s ctx info u ∨
    claudeTotal s ctx info u = 1 ∧ claudeCost s ctx info u = 0 := by
  simp only [claudeTotal,claudeCost,callCost]
  cases huse : (resettled s info u).usePrice with
  | false =>
    left
    rw [claudeAmount_eq s _ u _ huse]
    rfl
  | true =>
    rw [claudeAmount_perCall huse,if_pos rfl]
    by_cases hlift : (resettled s info u).chargeable ∧ perCallAmount s (resettled s info u) ≤ 0
    · right
      have hzero := le_antisymm hlift.2 (perCallAmount_nonneg s _)
      have hprice : (resettled s info u).modelPrice ≠ 0 := by
        simpa [PriceData.chargeable,chargeableInputNonZero,huse] using hlift.1
      have hfree : s.quotaPerUnit = 0 ∨ (resettled s info u).groupRatio = 0 := by
        simpa [perCallAmount,hprice] using hzero
      rw [liftNonpositive,if_pos hlift,claudeWebSearchFee_free hfree,← perCallAmount,hzero]
      exact ⟨add_zero 1,add_zero 0⟩
    · rw [liftNonpositive,if_neg hlift,perCallAmount]
      exact .inl rfl

end amounts

/-! The audio path. -/

def audioAmount (r : Ratios) (info : QuotaInfo) : ℚ :=
  if info.usePrice then info.modelPrice*r.quotaPerUnit*info.groupRatio
  else liftNonpositive (info.groupRatio*info.modelRatio ≠ 0) (tokenAmount r info)

/-- Whether its floor applies; unlike the other paths' this one asks for the group's ratio too. -/
def audioFloor (info : QuotaInfo) : Bool :=
  if info.usePrice then info.modelPrice ≠ 0 else info.groupRatio*info.modelRatio ≠ 0

lemma calculateAudioQuota_settled :
    calculateAudioQuota r info = settledQuota false (audioFloor info) (audioAmount r info) := by
  cases huse : info.usePrice <;>
    simp [calculateAudioQuota,settledQuota,audioFloor,audioAmount,liftNonpositive,huse]

def audioItems (r : Ratios) (info : QuotaInfo) : List (ℚ × ℚ) :=
  [(ofInt64 info.inputDetails.textTokens,1),(ofInt64 info.outputDetails.textTokens,info.completionRatio),
    (ofInt64 info.inputDetails.audioTokens,r.audioRatio info.modelName),
    (ofInt64 info.outputDetails.audioTokens,r.audioRatio info.modelName*r.audioCompletionRatio info.modelName)]

def audioCost (r : Ratios) (info : QuotaInfo) : ℚ :=
  if info.usePrice then info.modelPrice*r.quotaPerUnit*info.groupRatio
  else cost (audioItems r info)*(info.groupRatio*info.modelRatio)

/-- The call costs less than a word holds, and no free group makes a call of a priced model free. -/
def AudioCharged (r : Ratios) (info : QuotaInfo) (total : Int64) : Prop :=
  audioCost r info < 2^63-1/2 ∧
    (info.usePrice = false → info.groupRatio = 0 → info.modelRatio = 0 ∨ total = 0)

lemma settledQuota_floored {chargeable noTokens : Bool} {amount : ℚ} :
    NeverCredits (settledQuota false chargeable amount) chargeable noTokens ↔ 0 ≤ intPart amount := by
  have h := settledQuota_neverCredits false chargeable amount
  simp only [NeverCredits,Bool.false_eq_true,false_or,forall_const] at h ⊢
  rw [← h]
  refine and_congr_right fun hnonneg => ?_
  have hfloor : chargeable → 1 ≤ settledQuota false chargeable amount := by
    rintro rfl
    unfold settledQuota at hnonneg ⊢
    grind
  exact iff_of_true (fun hc _ => hfloor hc) hfloor

section signs
variable (s : Settings) (ctx : CallContext) (info : TextSettlement.RelayInfo)

lemma relayCharged_iff (usage : Option Usage) : RelayCharged s ctx info usage ↔
    relayEmpty s info usage = true ∨ Payable (relayCost s ctx info usage) := by
  refine or_congr_right ?_
  rw [Payable,and_comm]
  refine and_congr_left fun _ => ?_
  cases haud : negativeAudio s info usage with
  | true => simp
  | false =>
    have hnonneg := relayCost_nonneg s ctx info haud
    simp only [Bool.false_eq_true,false_imp_iff,true_iff]
    linarith

lemma claude_nonneg_iff {u : Usage} (hreach : claudeCost s ctx info u < 2^64-1/2) :
    0 ≤ intPart (claudeTotal s ctx info u) ↔ claudeCost s ctx info u < 2^63-1/2 := by
  rcases claudeTotal_eq s ctx info u with htotal | ⟨htotal,hcost⟩
  · have hcall := callCost_nonneg s (resettled s info u) (claudeItems s info (resettled s info u) u)
    have hfee := claudeWebSearchFee_nonneg s ctx (resettled s info u)
    have hnonneg : 0 ≤ claudeCost s ctx info u := add_nonneg hcall hfee
    rw [htotal,intPart_nonneg_iff_lt hnonneg hreach]
  · rw [htotal,hcost,intPart_one]
    norm_num
    decide

end signs

lemma calculateAudioQuota_neverCredits {r : Ratios} {info : QuotaInfo} {total : Int64}
    (hreach : audioCost r info < 2^64-1/2) :
    NeverCredits (calculateAudioQuota r info)
        (chargeableInputNonZero info.usePrice info.modelPrice info.modelRatio) (total==0) ↔
      AudioCharged r info total := by
  rw [calculateAudioQuota_settled,AudioCharged]
  cases huse : info.usePrice with
  | true =>
    have hnonneg : (0 : ℚ) ≤ info.modelPrice*r.quotaPerUnit*info.groupRatio := by positivity
    have hfloor : chargeableInputNonZero true info.modelPrice info.modelRatio = audioFloor info := by
      simp [chargeableInputNonZero,audioFloor,huse]
    rw [audioCost,if_pos huse] at hreach
    rw [hfloor,settledQuota_floored,audioAmount,if_pos huse,intPart_nonneg_iff_lt hnonneg hreach,audioCost,if_pos huse]
    simp
  | false =>
    have hcost : audioCost r info = tokenAmount r info := by
      simp [audioCost,huse,cost,audioItems,tokenAmount,add_assoc,mul_assoc]
    rw [hcost] at hreach ⊢
    by_cases hratio : info.groupRatio*info.modelRatio = 0
    · -- nothing is charged, whatever was used
      have hratio' : (info.groupRatio*info.modelRatio : ℚ) = 0 := by exact_mod_cast hratio
      have hquota : settledQuota false (audioFloor info) (audioAmount r info) = 0 := by
        simp [settledQuota,audioFloor,audioAmount,liftNonpositive,tokenAmount,huse,hratio,hratio']
      have hzero : tokenAmount r info = 0 := by simp [tokenAmount,hratio']
      rw [hquota,hzero]
      simp only [NeverCredits,chargeableInputNonZero]
      by_cases hmodel : info.modelRatio = 0
      · simp [hmodel]
        norm_num
      · have hgro := (mul_eq_zero.mp hratio).resolve_right hmodel
        by_cases htotal : total = 0
        · simp [hmodel,hgro,htotal]
          norm_num
        · simp [hmodel,hgro,htotal]
    · have hmodel : info.modelRatio ≠ 0 := right_ne_zero_of_mul hratio
      have hgro : info.groupRatio ≠ 0 := left_ne_zero_of_mul hratio
      have hfloor : chargeableInputNonZero false info.modelPrice info.modelRatio = audioFloor info := by
        simp [chargeableInputNonZero,audioFloor,huse,hratio,hmodel]
      have hamount : audioAmount r info = liftNonpositive true (tokenAmount r info) := by
        simp [audioAmount,huse,hratio]
      rw [hfloor,settledQuota_floored,hamount,and_iff_left fun _ h => absurd h hgro]
      unfold liftNonpositive
      split
      · next hlow =>
        rw [intPart_one]
        exact iff_of_true (by decide) (by linarith [hlow.2])
      · next hlow => exact intPart_nonneg_iff_lt (not_lt.mp fun h => hlow ⟨rfl,h.le⟩) hreach

/-- A call that meets its condition is not credited, and not free if chargeable. -/
theorem settlements_neverCredit (s : Settings) (ctx : CallContext) (info : TextSettlement.RelayInfo)
    (usage : Option Usage) (u : Usage) (r : Ratios) (audio : QuotaInfo) (total : Int64) :
    let relay := NeverCredits (postConsumeQuota s ctx info usage)
      (resettled s info (recordOf info usage)).chargeable (relayEmpty s info usage)
    let claude := NeverCredits (postClaudeConsumeQuota s ctx info u) (resettled s info u).chargeable
      (claudeEmpty s info u)
    let spoken := NeverCredits (calculateAudioQuota r audio)
      (chargeableInputNonZero audio.usePrice audio.modelPrice audio.modelRatio) (total==0)
    ((RelayCharged s ctx info usage → relay) ∧ (-2^63 ≤ relayCost s ctx info usage →
      relayCost s ctx info usage < 2^64-1/2 → relay → RelayCharged s ctx info usage)) ∧
    ((ClaudeCharged s ctx info u → claude) ∧
      (claudeCost s ctx info u < 2^64-1/2 → claude → ClaudeCharged s ctx info u)) ∧
    ((AudioCharged r audio total → spoken) ∧
      (audioCost r audio < 2^64-1/2 → spoken → AudioCharged r audio total)) := by
  intro relay claude spoken
  have hrelay : relay ↔ relayEmpty s info usage ∨ 0 ≤ intPart (relayCost s ctx info usage) := by
    simp only [relay,postConsumeQuota_settled,settledQuota_neverCredits,relayAmount_eq]
  have hclaude : claude ↔ claudeEmpty s info u ∨ 0 ≤ intPart (claudeTotal s ctx info u) := by
    simp only [claude,postClaudeConsumeQuota_settled,settledQuota_neverCredits]
  refine ⟨⟨fun h => ?_,fun hlo hhi h => ?_⟩,⟨fun h => ?_,fun hhi h => ?_⟩,⟨fun h => ?_,fun hhi h => ?_⟩⟩
  · exact hrelay.mpr (((relayCharged_iff s ctx info usage).mp h).imp_right Payable.intPart_nonneg)
  · exact (relayCharged_iff s ctx info usage).mpr
      ((hrelay.mp h).imp_right (intPart_nonneg_iff_payable hlo hhi).mp)
  · exact hclaude.mpr (h.imp_right fun hfits => (claude_nonneg_iff s ctx info (by linarith)).mpr hfits)
  · exact (hclaude.mp h).imp_right (claude_nonneg_iff s ctx info hhi).mp
  · exact (calculateAudioQuota_neverCredits (by linarith [h.1])).mpr h
  · exact (calculateAudioQuota_neverCredits hhi).mp h

def geminiFlash : TextSettlement.RelayInfo where
  originModelName := "gemini-2.5-flash"
  priceData := { modelRatio := .divNat 3 20, completionRatio := (8 : ℕ) }

theorem relayAmount_nonneg_flash :
    0 ≤ relayAmount {} { claudeWebSearchRequests := 1 } geminiFlash
      (some { promptTokens := 10, completionTokens := -20, promptTokensDetails := { audioTokens := 5 } }) :=
  relayAmount_nonneg _ _ _ (.inr (by decide))

def flatRatios : Ratios where
  modelPrice := fun _ => none
  modelRatio := fun _ => (1,true)
  completionRatio := fun _ => 1
  audioRatio := fun _ => 1
  audioCompletionRatio := fun _ => 1
  contextTiers := fun _ => []
  groupRatio := fun _ => 1
  groupGroupRatio := fun _ _ => none
  quotaPerUnit := (500000 : ℕ)

theorem settlements_credit :
    let negative : Usage := { promptTokens := 10, promptTokensDetails := { audioTokens := -1000000 } }
    let huge : Usage := { promptTokens := 2^62, completionTokens := 2^60 }
    let free : QuotaInfo := { inputDetails := ⟨100,0⟩, outputDetails := ⟨0,0⟩, modelName := "m", usePrice := false,
                              modelRatio := 1, completionRatio := 1, groupRatio := 0 }
    (postConsumeQuota {} {} geminiFlash (some negative) = -349999 ∧
      ¬ NeverCredits (postConsumeQuota {} {} geminiFlash (some negative)) true false) ∧
    (postClaudeConsumeQuota {} {} claudeModel huge = -5*2^59 ∧
      ¬ NeverCredits (postClaudeConsumeQuota {} {} claudeModel huge) true false) ∧
    (calculateAudioQuota flatRatios free = 0 ∧
      ¬ NeverCredits (calculateAudioQuota flatRatios free) true false) := by
  decide +kernel

end LurusHub.SettlementSign
