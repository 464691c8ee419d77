import LurusHub.ClaudeStream

/-! Usage records across the three wires. Gemini counts thoughts outside its candidates and the
cache inside its prompt, the Anthropic wire both cache terms outside its prompt, the OpenAI wire
everything inside. A flag says which convention a record's prompt follows. -/
namespace LurusHub.UsageWires
open Pricing ClaudeStream

structure OutputTokenDetails where
  reasoningTokens : Int64 := 0
  deriving DecidableEq

structure Record extends Usage where
  promptTextTokens : Int64 := 0
  completionTokenDetails : OutputTokenDetails := {}
  deriving DecidableEq

structure GeminiPromptTokensDetails where
  modality : String
  tokenCount : Int64
  deriving DecidableEq

structure GeminiUsageMetadata where
  promptTokenCount : Int64 := 0
  candidatesTokenCount : Int64 := 0
  totalTokenCount : Int64 := 0
  thoughtsTokenCount : Int64 := 0
  toolUsePromptTokenCount : Int64 := 0
  cachedContentTokenCount : Int64 := 0
  promptTokensDetails : List GeminiPromptTokensDetails := []
  deriving DecidableEq

/-- Other modalities are not counted apart. -/
def addModality (usage : Record) (detail : GeminiPromptTokensDetails) : Record :=
  if detail.modality = "AUDIO" then
    { usage with promptTokensDetails.audioTokens := usage.promptTokensDetails.audioTokens+detail.tokenCount }
  else if detail.modality = "TEXT" then
    { usage with promptTextTokens := usage.promptTextTokens+detail.tokenCount }
  else usage

def buildUsageFromGeminiMetadata (metadata : GeminiUsageMetadata) : Record :=
  metadata.promptTokensDetails.foldl addModality
    { promptTokens := metadata.promptTokenCount+metadata.toolUsePromptTokenCount
      completionTokens := metadata.candidatesTokenCount+metadata.thoughtsTokenCount
      totalTokens := metadata.totalTokenCount
      completionTokenDetails := { reasoningTokens := metadata.thoughtsTokenCount }
      promptTokensDetails := { cachedTokens := metadata.cachedContentTokenCount }
      promptTokensIncludeCached := true }

def geminiUsageMetadata : Option Record → GeminiUsageMetadata
  | none => {}
  | some u =>
    let reasoning := u.completionTokenDetails.reasoningTokens
    { promptTokenCount := u.promptTokens
      candidatesTokenCount := u.completionTokens-reasoning
      thoughtsTokenCount := reasoning
      totalTokenCount := if u.totalTokens = 0 then u.promptTokens+u.completionTokens else u.totalTokens
      cachedContentTokenCount := u.promptTokensDetails.cachedTokens }

/-- The display copy changes the prompt, the total and the flag alone. -/
def Record.asOpenAIWire (u : Record) : Record :=
  { u with toUsage := u.toUsage.asOpenAIWire }

/-! The cache terms of both wires. -/

section Cache
variable (u : Usage)

@[simp] lemma asOpenAIWire_flag : u.asOpenAIWire.promptTokensIncludeCached := by
  by_cases h : u.promptTokensIncludeCached <;> simp [Usage.asOpenAIWire,h]

@[simp] lemma asOpenAIWire_details : u.asOpenAIWire.promptTokensDetails = u.promptTokensDetails := by
  by_cases h : u.promptTokensIncludeCached <;> simp [Usage.asOpenAIWire,h]

lemma asOpenAIWire_of_flag (h : u.promptTokensIncludeCached) : u.asOpenAIWire = u := by
  simp [Usage.asOpenAIWire,h]

@[simp] lemma asOpenAIWire_idem : u.asOpenAIWire.asOpenAIWire = u.asOpenAIWire :=
  asOpenAIWire_of_flag _ (asOpenAIWire_flag u)

def uncached : Int64 :=
  u.asOpenAIWire.promptTokens-u.promptTokensDetails.cachedTokens-u.promptTokensDetails.cachedCreationTokens

lemma anthropicInputTokens_asOpenAIWire :
    anthropicInputTokens u.asOpenAIWire = if uncached u < 0 then 0 else uncached u := by
  rw [anthropicInputTokens,if_pos (asOpenAIWire_flag u),asOpenAIWire_details]
  rfl

lemma uncached_anthropic (h : u.promptTokensIncludeCached = false) : uncached u = u.promptTokens := by
  simp only [uncached,Usage.asOpenAIWire]
  grind

lemma uncached_add :
    uncached u+u.promptTokensDetails.cachedTokens+u.promptTokensDetails.cachedCreationTokens
      = u.asOpenAIWire.promptTokens := by
  simp only [uncached]
  grind

theorem anthropicInputTokens_add_iff :
    anthropicInputTokens u.asOpenAIWire+u.promptTokensDetails.cachedTokens
        +u.promptTokensDetails.cachedCreationTokens = u.asOpenAIWire.promptTokens ↔ 0 ≤ uncached u := by
  rw [anthropicInputTokens_asOpenAIWire,← uncached_add u]
  by_cases h : uncached u < 0
  · constructor
    · intro heq
      have hzero : uncached u = 0 := by grind
      rw [hzero] at h
      exact absurd h (by decide)
    · intro hle
      exact absurd h (Int64.not_lt.mpr hle)
  · rw [if_neg h]
    exact iff_of_true rfl (Int64.not_lt.mp h)

end Cache

structure Consistent (u : Record) : Prop where
  prompt : 0 ≤ u.promptTokens.toInt
  cached : 0 ≤ u.promptTokensDetails.cachedTokens.toInt
  created : 0 ≤ u.promptTokensDetails.cachedCreationTokens.toInt
  reasoning : u.completionTokenDetails.reasoningTokens.toInt ≤ u.completionTokens.toInt
  cache : u.promptTokensDetails.cachedTokens.toInt+u.promptTokensDetails.cachedCreationTokens.toInt
    ≤ u.promptTokens.toInt

lemma toInt_sub_of_le {a b : Int64} (hb : 0 ≤ b.toInt) (hab : b.toInt ≤ a.toInt) :
    (a-b).toInt = a.toInt-b.toInt := by
  have ha := a.toInt_lt
  rw [Int64.toInt_sub,Int.bmod_eq_of_le] <;> omega

lemma Consistent.uncached_nonneg (h : Consistent u) : 0 ≤ uncached u.toUsage := by
  obtain ⟨hprompt,hcached,hcre,-,hcac⟩ := h
  rw [Int64.le_iff_toInt_le]
  cases hflag : u.promptTokensIncludeCached with
  | false =>
    rw [uncached_anthropic u.toUsage hflag]
    exact hprompt
  | true =>
    have hrest := toInt_sub_of_le hcached (a := u.promptTokens) (by omega)
    have hboth := toInt_sub_of_le hcre
      (a := u.promptTokens-u.promptTokensDetails.cachedTokens) (by omega)
    rw [uncached,asOpenAIWire_of_flag _ hflag]
    change 0 ≤ _
    omega

/-! The Gemini wire. -/

lemma geminiUsageMetadata_build (htool : m.toolUsePromptTokenCount = 0)
    (htotal : m.totalTokenCount ≠ 0) (hdet : m.promptTokensDetails = []) :
    geminiUsageMetadata (some (buildUsageFromGeminiMetadata m)) = m := by
  cases m with
  | mk prompt candidates total thoughts tool cached details =>
    subst hdet htool
    have hcan : candidates+thoughts-thoughts = candidates := by grind
    simp [geminiUsageMetadata,buildUsageFromGeminiMetadata,htotal]

/-- The conversions undo each other on what the other wire can say. -/
theorem usageConversions_inverse :
    (∀ m : GeminiUsageMetadata, m.toolUsePromptTokenCount = 0 → m.totalTokenCount ≠ 0 →
      m.promptTokensDetails = [] → geminiUsageMetadata (some (buildUsageFromGeminiMetadata m)) = m) ∧
    (∀ u : Record, u.asOpenAIWire.asOpenAIWire = u.asOpenAIWire) ∧ (∀ u : Record, Consistent u →
      anthropicInputTokens u.asOpenAIWire.toUsage+u.promptTokensDetails.cachedTokens
        +u.promptTokensDetails.cachedCreationTokens = u.asOpenAIWire.promptTokens) ∧
    (∀ u : Record, u.promptTokensIncludeCached = false → 0 ≤ u.promptTokens →
      anthropicInputTokens u.asOpenAIWire.toUsage = u.promptTokens) := by
  refine ⟨fun m => geminiUsageMetadata_build,fun u => ?_,fun u h => ?_,fun u hwire hprompt => ?_⟩
  · simp [Record.asOpenAIWire]
  · exact (anthropicInputTokens_add_iff u.toUsage).mpr h.uncached_nonneg
  · have hunc := uncached_anthropic u.toUsage hwire
    have hsho := anthropicInputTokens_asOpenAIWire u.toUsage
    rw [hunc,if_neg (Int64.not_lt.mpr hprompt)] at hsho
    exact hsho

def cachedCall : Record where
  promptTokens := 70
  completionTokens := 30
  totalTokens := 100
  promptTokensDetails := { cachedTokens := 50 }
  completionTokenDetails := { reasoningTokens := 10 }

theorem usageConversions_inverse_cachedCall : cachedCall.asOpenAIWire.promptTokens = 120 ∧
    anthropicInputTokens cachedCall.asOpenAIWire.toUsage+50+0 = 120 ∧
    anthropicInputTokens cachedCall.asOpenAIWire.toUsage = 70 ∧
    geminiUsageMetadata (some (buildUsageFromGeminiMetadata
      { promptTokenCount := 120, candidatesTokenCount := 20, thoughtsTokenCount := 10,
        totalTokenCount := 150, cachedContentTokenCount := 50 }))
      = { promptTokenCount := 120, candidatesTokenCount := 20, thoughtsTokenCount := 10,
          totalTokenCount := 150, cachedContentTokenCount := 50 } := by
  have hconsistent : Consistent cachedCall := by constructor <;> decide
  obtain ⟨hgem,-,hsum,hinp⟩ := usageConversions_inverse
  exact ⟨by decide,hsum cachedCall hconsistent,hinp cachedCall rfl (by decide),
    hgem _ rfl (by decide) rfl⟩

def negativeCall : Record where
  promptTokens := -1
  promptTokensDetails := { cachedTokens := -1 }

theorem negativeCall_clamped :
    negativeCall.completionTokenDetails.reasoningTokens.toInt ≤ negativeCall.completionTokens.toInt ∧
    negativeCall.promptTokensDetails.cachedTokens.toInt+negativeCall.promptTokensDetails.cachedCreationTokens.toInt
      ≤ negativeCall.promptTokens.toInt ∧
    anthropicInputTokens negativeCall.asOpenAIWire.toUsage+negativeCall.promptTokensDetails.cachedTokens
      +negativeCall.promptTokensDetails.cachedCreationTokens ≠ negativeCall.asOpenAIWire.promptTokens ∧
    anthropicInputTokens negativeCall.asOpenAIWire.toUsage ≠ negativeCall.promptTokens := by
  decide

end LurusHub.UsageWires
