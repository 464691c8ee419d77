import LurusHub.Decimal
import Mathlib.Data.Rat.Floor

/-! Prices of a relay call, frozen before the call and settled after it; in between only the
context-length tier may move, from the frozen base ratios. Token counts are the 64-bit words an
upstream reports. -/
namespace LurusHub.Pricing

structure InputTokenDetails where
  cachedTokens : Int64 := 0
  cachedCreationTokens : Int64 := 0
  imageTokens : Int64 := 0
  audioTokens : Int64 := 0
  deriving DecidableEq

structure Usage where
  promptTokens : Int64 := 0
  completionTokens : Int64 := 0
  totalTokens : Int64 := 0
  promptTokensIncludeCached : Bool := false
  promptTokensDetails : InputTokenDetails := {}
  claudeCacheCreation5mTokens : Int64 := 0
  claudeCacheCreation1hTokens : Int64 := 0
  costIsIntZero : Bool := false
  deriving DecidableEq

def Usage.asOpenAIWire (u : Usage) : Usage :=
  if u.promptTokensIncludeCached then u
  else
    let promptTokens := u.promptTokens+u.promptTokensDetails.cachedTokens
      +u.promptTokensDetails.cachedCreationTokens
    { u with promptTokens, totalTokens := promptTokens+u.completionTokens,
             promptTokensIncludeCached := true }

structure ContextTier where
  thresholdTokens : Int64
  modelRatio : Option ℚ≥0 := none
  completionRatio : Option ℚ≥0 := none
  cacheRatio : Option ℚ≥0 := none
  deriving DecidableEq

/-- The tier with the highest threshold at or below the context length. -/
def getContextLengthTier (tiers : List ContextTier) (promptTokens : Int64) : Option ContextTier :=
  tiers.foldl (fun best t =>
    if promptTokens < t.thresholdTokens then best
    else match best with
      | none => some t
      | some b => if b.thresholdTokens < t.thresholdTokens then some t else some b) none

structure PriceData where
  usePrice : Bool := false
  modelPrice : ℚ≥0 := 0
  modelRatio : ℚ≥0 := 0
  completionRatio : ℚ≥0 := 0
  cacheRatio : ℚ≥0 := 0
  cacheCreationRatio : ℚ≥0 := 0
  cacheCreation5mRatio : ℚ≥0 := 0
  cacheCreation1hRatio : ℚ≥0 := 0
  cacheCreationRatioDefaulted : Bool := false
  imageRatio : ℚ≥0 := 0
  otherRatios : List (String × ℚ≥0) := []
  groupRatio : ℚ≥0 := 1
  contextTierThreshold : Int64 := 0
  baseModelRatio : ℚ≥0 := 0
  baseCompletionRatio : ℚ≥0 := 0
  baseCacheRatio : ℚ≥0 := 0
  baseRatiosSet : Bool := false
  deriving DecidableEq

/-- An unlisted model bills a cache write at the input rate on the OpenAI wire. -/
def PriceData.cacheCreationRatioForWire (p : PriceData) (promptIncludesCached : Bool) : ℚ≥0 :=
  if promptIncludesCached && p.cacheCreationRatioDefaulted then 1 else p.cacheCreationRatio

def chargeableInputNonZero (usePrice : Bool) (modelPrice modelRatio : ℚ≥0) : Bool :=
  if usePrice then modelPrice ≠ 0 else modelRatio ≠ 0

def PriceData.chargeable (p : PriceData) : Bool :=
  chargeableInputNonZero p.usePrice p.modelPrice p.modelRatio

/-! Fixed prices of tools, in dollars. -/

def hasPrefix (s t : String) : Bool := t.toList.isPrefixOf s.toList

def hasSuffix (s t : String) : Bool := t.toList.isSuffixOf s.toList

def getClaudeWebSearchPricePerThousand : ℚ≥0 := (10 : ℕ)

def getWebSearchPricePerThousand (modelName : String) : ℚ≥0 :=
  if ["o3","o4","gpt-5"].any (hasPrefix modelName) then (10 : ℕ) else (25 : ℕ)

def getFileSearchPricePerThousand : ℚ≥0 := .divNat 5 2

/-- The first name that the model's begins with decides. -/
def getGeminiInputAudioPricePerMillionTokens (modelName : String) : ℚ≥0 :=
  let prices : List (String × ℚ≥0) :=
    [("gemini-2.5-flash-preview-native-audio",(3 : ℕ)),("gemini-2.5-flash-preview-lite",.divNat 1 2),
     ("gemini-2.5-flash-preview",1),("gemini-2.5-flash",1),("gemini-2.0-flash",.divNat 7 10),
     ("gemini-robotics-er-1.5",1)]
  ((prices.find? fun price => hasPrefix modelName price.1).map (·.2)).getD 0

/-- An unknown quality or size costs what the largest square image does. -/
def getGPTImage1PriceOnceCall (quality size : String) : ℚ≥0 :=
  match quality,size with
  | "low","1024x1024" => .divNat 11 1000
  | "low","1024x1536" | "low","1536x1024" => .divNat 16 1000
  | "medium","1024x1024" => .divNat 42 1000
  | "medium","1024x1536" | "medium","1536x1024" => .divNat 63 1000
  | "high","1024x1536" | "high","1536x1024" => .divNat 25 100
  | _,_ => .divNat 167 1000

def PriceData.override (p : PriceData) (tier : Option ContextTier) : PriceData :=
  { p with
    modelRatio := (tier.bind (·.modelRatio)).getD p.baseModelRatio
    completionRatio := (tier.bind (·.completionRatio)).getD p.baseCompletionRatio
    cacheRatio := (tier.bind (·.cacheRatio)).getD p.baseCacheRatio
    contextTierThreshold := (tier.map (·.thresholdTokens)).getD 0 }

def resettleContextTier (tiers : List ContextTier) (p : PriceData) (actualPromptTokens : Int64) :
    PriceData :=
  if p.usePrice then p
  else if tiers.isEmpty then p
  else if !p.baseRatiosSet then p
  else p.override (getContextLengthTier tiers actualPromptTokens)

theorem resettleContextTier_resettle (tiers : List ContextTier) (p : PriceData) (m n : Int64) :
    resettleContextTier tiers (resettleContextTier tiers p m) n = resettleContextTier tiers p n := by
  by_cases hskip : p.usePrice ∨ tiers.isEmpty ∨ p.baseRatiosSet = false
  · have hp (k : Int64) : resettleContextTier tiers p k = p := by
      rcases hskip with h|h|h <;> simp [resettleContextTier,h]
    rw [hp m]
  · simp only [not_or] at hskip
    obtain ⟨hp,ht,hb⟩ := hskip
    simp [resettleContextTier,PriceData.override,hp,ht,hb]

section fields
variable (tiers : List ContextTier) (p : PriceData) (n : Int64)

lemma resettleContextTier_cases : resettleContextTier tiers p n = p ∨
      resettleContextTier tiers p n = p.override (getContextLengthTier tiers n) := by
  unfold resettleContextTier
  split
  · exact .inl rfl
  · split
    · exact .inl rfl
    · split
      · exact .inl rfl
      · exact .inr rfl

@[simp] lemma resettleContextTier_usePrice : (resettleContextTier tiers p n).usePrice = p.usePrice := by
  cases resettleContextTier_cases tiers p n with
  | inl h => rw [h]
  | inr h => rw [h]; rfl

@[simp] lemma resettleContextTier_otherRatios :
    (resettleContextTier tiers p n).otherRatios = p.otherRatios := by
  cases resettleContextTier_cases tiers p n with
  | inl h => rw [h]
  | inr h => rw [h]; rfl

end fields

end LurusHub.Pricing
