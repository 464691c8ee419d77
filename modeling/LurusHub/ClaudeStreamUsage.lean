import LurusHub.ClaudeUpstream

/-! The bill of a streamed Claude answer against the same answer in one piece. `message_delta` replaces
the counters of `message_start`, all but the two parts of the cache creation. -/
namespace LurusHub.ClaudeUpstream
open Pricing ClaudeUsage Option

structure Billed where
  (promptTokens completionTokens cachedTokens cachedCreationTokens cacheCreation5mTokens : Int64)
  (cacheCreation1hTokens webSearchRequests : Int64)
  deriving DecidableEq

def Settled.billed (s : Settled) : Billed where
  promptTokens := s.usage.promptTokens
  completionTokens := s.usage.completionTokens
  cachedTokens := s.usage.promptTokensDetails.cachedTokens
  cachedCreationTokens := s.usage.promptTokensDetails.cachedCreationTokens
  cacheCreation5mTokens := s.usage.claudeCacheCreation5mTokens
  cacheCreation1hTokens := s.usage.claudeCacheCreation1hTokens
  webSearchRequests := s.claudeWebSearchRequests

def ClaudeUsage.billed (u : ClaudeUsage) : Billed where
  promptTokens := u.inputTokens
  completionTokens := u.outputTokens
  cachedTokens := u.cacheReadInputTokens
  cachedCreationTokens := u.cacheCreationInputTokens
  cacheCreation5mTokens := u.getCacheCreation5mTokens
  cacheCreation1hTokens := u.getCacheCreation1hTokens
  webSearchRequests := u.webSearchRequests

structure Grows (counter final : Int64) : Prop where
  count : 0 ≤ counter
  le : counter ≤ final

structure Cumulative (start final : ClaudeUsage) : Prop where
  input : Grows start.inputTokens final.inputTokens
  cacheRead : Grows start.cacheReadInputTokens final.cacheReadInputTokens
  cacheCreation : Grows start.cacheCreationInputTokens final.cacheCreationInputTokens
  cacheCreation5m : Grows start.getCacheCreation5mTokens final.getCacheCreation5mTokens
  cacheCreation1h : Grows start.getCacheCreation1hTokens final.getCacheCreation1hTokens
  webSearch : Grows start.webSearchRequests final.webSearchRequests
  output : 0 < final.outputTokens

lemma Grows.reported (h : Grows counter final) : reported final counter = final := by
  unfold ClaudeUpstream.reported
  split
  · rfl
  · next hpos =>
    have hzero : final ≤ counter := Int64.le_trans (Int64.not_lt.mp hpos) h.count
    exact Int64.le_antisymm h.le hzero

lemma maxSearches_of_le (h : Grows before u.webSearchRequests) :
    maxSearches u before = u.webSearchRequests := by
  unfold maxSearches
  cases hstu : u.serverToolUse with
  | none =>
    have hle := h.le
    simp only [webSearchRequests,hstu] at hle ⊢
    exact Int64.le_antisymm hle h.count
  | some stu =>
    have hle := h.le
    simp only [webSearchRequests,hstu] at hle ⊢
    split
    · rfl
    · next hlt => exact Int64.le_antisymm hle (Int64.not_lt.mp hlt)

/-- An event between `message_start` and `message_delta` that can be converted. -/
def ContentEvent (r : ClaudeResponse) : Prop :=
  r.errorType = none ∧ r.type ≠ .messageStart ∧ r.type ≠ .messageDelta ∧
    ∀ delta ∈ r.delta, delta.type = .inputJsonDelta → delta.partialJson.isSome
  deriving Decidable

structure SameUsage (info info' : ClaudeResponseInfo) : Prop where
  usage : info'.usage = info.usage
  webSearchRequests : info'.webSearchRequests = info.webSearchRequests
  done : info'.done = info.done

lemma formatClaudeResponseInfo_content (h : ContentEvent r)
    (hformat : formatClaudeResponseInfo .message r info = some info') : SameUsage info info' := by
  obtain ⟨-,hstart,hdelta,-⟩ := h
  unfold formatClaudeResponseInfo at hformat
  cases htype : r.type with
  | messageStart => exact absurd htype hstart
  | messageDelta => exact absurd htype hdelta
  | contentBlockStart =>
    simp only [htype,some.injEq] at hformat
    subst hformat
    exact ⟨rfl,rfl,rfl⟩
  | contentBlockDelta =>
    simp only [htype] at hformat
    obtain ⟨delta,-,rfl⟩ := map_eq_some_iff.mp hformat
    exact ⟨rfl,rfl,rfl⟩
  | contentBlockStop | messageStop | other type => simp [htype] at hformat

lemma streamResponse_content (h : ContentEvent r) :
    ∃ response, streamResponseClaude2OpenAI .message r = .ok response := by
  obtain ⟨-,hstart,hdelta,hjson⟩ := h
  cases htype : r.type with
  | messageStart => exact absurd htype hstart
  | messageDelta => exact absurd htype hdelta
  | contentBlockStart | contentBlockStop | messageStop | other type => simp [streamResponseClaude2OpenAI,htype]
  | contentBlockDelta =>
    cases hd : r.delta with
    | none => simp [streamResponseClaude2OpenAI,htype,hd]
    | some delta =>
      simp only [streamResponseClaude2OpenAI,htype,hd]
      cases hkind : delta.type with
      | inputJsonDelta =>
        obtain ⟨partialJson,hpart⟩ := isSome_iff_exists.mp (hjson delta hd hkind)
        simp [blockDeltaChunk,hkind,hpart,Except.map]
      | textDelta | signatureDelta | thinkingDelta | other type => simp [blockDeltaChunk,hkind,Except.map]

section
variable (format : RelayFormat)

lemma handle_content (h : ContentEvent r) (hand : Handler) :
    ∃ hand' frames, handleStreamResponseData format .message hand r = .ok (hand',frames) ∧
      SameUsage hand.info hand'.info := by
  obtain ⟨response,hres⟩ := streamResponse_content h
  obtain ⟨hand',frames,hhan,hinfo⟩ := handleStreamResponseData_info format h.1 hres hand
  refine ⟨hand',frames,hhan,?_⟩
  rw [hinfo]
  cases hformat : formatClaudeResponseInfo .message r hand.info with
  | none => exact ⟨rfl,rfl,rfl⟩
  | some info => exact formatClaudeResponseInfo_content h hformat

lemma handleEvents_content (h : ∀ r ∈ events, ContentEvent r) (hand : Handler) :
    ∃ hand' frames, handleEvents format .message hand events = .ok (hand',frames) ∧
      SameUsage hand.info hand'.info := by
  induction events generalizing hand with
  | nil => exact ⟨hand,[],rfl,⟨rfl,rfl,rfl⟩⟩
  | cons r events ih =>
    obtain ⟨h₁,frames,hhead,hsame⟩ := handle_content format (h r List.mem_cons_self) hand
    obtain ⟨h₂,rest,htail,hsame'⟩ := ih (fun r' hr' => h r' (List.mem_cons_of_mem r hr')) h₁
    refine ⟨h₂,frames++rest,?_,⟨hsame'.usage.trans hsame.usage,hsame'.webSearchRequests.trans hsame.webSearchRequests,
      hsame'.done.trans hsame.done⟩⟩
    simp [handleEvents,hhead,htail,bind,Except.bind,pure,Except.pure]

def usageStream (message : Message) (start final : ClaudeUsage) (contents : List ClaudeResponse) (delta : Option Delta) :
    List ClaudeResponse :=
  [{ type := .messageStart, message := some { message with usage := some start } }]++contents++
    [{ type := .messageDelta, delta := delta, usage := some final }]++[{ type := .messageStop }]

lemma handleEvents_single
    (h : handleStreamResponseData format .message hand r = .ok (hand',frames)) :
    handleEvents format .message hand [r] = .ok (hand',frames) := by
  simp [handleEvents,h,bind,Except.bind,pure,Except.pure]

lemma handleEvents_usageStream (message : Message) (start final : ClaudeUsage)
    (hcon : ∀ r ∈ contents, ContentEvent r) (delta : Option Delta) (hand : Handler) :
    ∃ hand' frames,
      handleEvents format .message hand (usageStream message start final contents delta) = .ok (hand',frames) ∧
      hand'.info.usage = deltaUsage (startUsage hand.info.usage start) final ∧
      hand'.info.webSearchRequests = maxSearches final (maxSearches start hand.info.webSearchRequests) ∧
      hand'.info.done := by
  obtain ⟨h₁,f₁,hstart,hinfo₁⟩ := handleStreamResponseData_info format
    (r:={ type := .messageStart, message := some { message with usage := some start } }) rfl
    (show streamResponseClaude2OpenAI .message _ = .ok _ from rfl) hand
  obtain ⟨h₂,f₂,hmid,hsame⟩ := handleEvents_content format hcon h₁
  obtain ⟨h₃,f₃,hdelta,hinfo₃⟩ := handleStreamResponseData_info format
    (r:={ type := .messageDelta, delta := delta, usage := some final }) rfl
    (show streamResponseClaude2OpenAI .message _ = .ok _ from rfl) h₂
  obtain ⟨h₄,f₄,hstop,hsame'⟩ := handle_content format (r:={ type := .messageStop }) (by decide) h₃
  refine ⟨h₄,_,handleEvents_append (handleEvents_append (handleEvents_append (handleEvents_single format hstart) hmid)
    (handleEvents_single format hdelta)) (handleEvents_single format hstop),?_,?_,?_⟩
  · rw [hsame'.usage,hinfo₃]
    simp [formatClaudeResponseInfo,hsame.usage,hinfo₁]
  · rw [hsame'.webSearchRequests,hinfo₃]
    simp [formatClaudeResponseInfo,hsame.webSearchRequests,hinfo₁]
  · rw [hsame'.done,hinfo₃]
    rfl

end

lemma positive_or_zero {n : Int64} (h : 0 ≤ n) : (if 0 < n then n else 0) = n := by
  split
  · rfl
  · next hpos => exact Int64.le_antisymm h (Int64.not_lt.mp hpos)

lemma handleClaudeResponseData_billed
    (herror : r.errorType = none) (husa : r.usage = some u) (hsea : 0 ≤ u.webSearchRequests) :
    ∃ plain, handleClaudeResponseData env .message upstreamModelName r = .ok plain ∧ plain.billed = u.billed := by
  simp only [handleClaudeResponseData,herror,husa]
  refine ⟨_,rfl,?_⟩
  simp only [Settled.billed,billed,webSearchRequests,bind_some] at hsea ⊢
  cases hstu : u.serverToolUse with
  | none => rfl
  | some stu =>
    simp only [hstu,elim_some] at hsea ⊢
    rw [positive_or_zero hsea]

theorem claudeStreamHandler_billed (format : RelayFormat) (h : Cumulative start final)
    (hcon : ∀ r ∈ contents, ContentEvent r) :
    ∃ streamed,
      claudeStreamHandler env format .message upstream (usageStream message start final contents delta) =
        .ok streamed ∧
      streamed.billed = { final.billed with
        cacheCreation5mTokens := start.getCacheCreation5mTokens
        cacheCreation1hTokens := start.getCacheCreation1hTokens } := by
  obtain ⟨hand,frames,heve,husa,hsea,hdone⟩ := handleEvents_usageStream format message start final hcon
    delta ⟨{ responseId := env.responseId, model := upstream },upstream⟩
  have houtput : hand.info.usage.completionTokens ≠ 0 := by
    rw [husa]
    intro hzero
    have hpos := h.output
    rw [show final.outputTokens = 0 from hzero] at hpos
    exact absurd hpos (by decide)
  have hfinal : finalUsage env .message hand = hand.info.usage := by simp [finalUsage,houtput,hdone]
  have hcount : maxSearches final (maxSearches start 0) = final.webSearchRequests := by
    rw [maxSearches_of_le ⟨Int64.le_refl 0,h.webSearch.count⟩,maxSearches_of_le h.webSearch]
  refine ⟨⟨hand.info.usage,if 0 < hand.info.webSearchRequests then hand.info.webSearchRequests else 0⟩,?_,?_⟩
  · simp [claudeStreamHandler,heve,hdone,handleStreamFinalResponse,hfinal,bind,Except.bind]
  · have hnonneg := Int64.le_trans h.webSearch.count h.webSearch.le
    simp only [Settled.billed,billed,husa,hsea,hcount,positive_or_zero hnonneg,deltaUsage,startUsage,
      h.input.reported,h.cacheRead.reported,h.cacheCreation.reported]

/-- The bills agree exactly when cache creation did not grow after `message_start`. -/
theorem streamed_bill_iff (env : Env) (format : RelayFormat) (upstreamModelName : String) (message : Message)
    {start final : ClaudeUsage} (h : Cumulative start final) {contents : List ClaudeResponse}
    (hcontents : ∀ r ∈ contents, ContentEvent r) (delta : Option Delta) {r : ClaudeResponse}
    (herror : r.errorType = none) (husage : r.usage = some final) : ∃ streamed plain,
      claudeStreamHandler env format .message upstreamModelName (usageStream message start final contents delta) =
        .ok streamed ∧ handleClaudeResponseData env .message upstreamModelName r = .ok plain ∧
      (streamed.billed = plain.billed ↔ final.getCacheCreation5mTokens = start.getCacheCreation5mTokens ∧
        final.getCacheCreation1hTokens = start.getCacheCreation1hTokens) := by
  obtain ⟨streamed,hstr,hbill⟩ := claudeStreamHandler_billed format h hcontents
  obtain ⟨plain,hplain,hbill'⟩ := handleClaudeResponseData_billed herror husage
    (Int64.le_trans h.webSearch.count h.webSearch.le)
  refine ⟨streamed,plain,hstr,hplain,?_⟩
  rw [hbill,hbill']
  simp only [billed,Billed.mk.injEq,true_and,and_true]
  constructor
  · rintro ⟨h5m,h1h⟩
    exact ⟨h5m.symm,h1h.symm⟩
  · rintro ⟨h5m,h1h⟩
    exact ⟨h5m.symm,h1h.symm⟩

def quietEnv : Env := ⟨"resp",fun _ _ => 0,0,false,true⟩

def createdUsage (outputTokens tokens5m : Int64) : ClaudeUsage :=
  { inputTokens := 10, outputTokens := outputTokens, cacheCreationInputTokens := tokens5m,
    cacheCreation := some { ephemeral5mInputTokens := tokens5m } }

theorem streamed_bill_iff_created : Cumulative (createdUsage 1 100) (createdUsage 5 100) ∧
    ∃ streamed plain, claudeStreamHandler quietEnv .openAI .message "claude"
        (usageStream {} (createdUsage 1 100) (createdUsage 5 100) [] none) = .ok streamed ∧
      handleClaudeResponseData quietEnv .message "claude"
        { type := .other "message", usage := some (createdUsage 5 100) } = .ok plain ∧
      streamed.billed = plain.billed := by
  have hcumulative : Cumulative (createdUsage 1 100) (createdUsage 5 100) := by
    constructor <;> first | decide | constructor <;> decide
  obtain ⟨streamed,plain,hstr,hplain,hiff⟩ := streamed_bill_iff quietEnv .openAI "claude" {} hcumulative
    (by simp : ∀ r ∈ ([] : List ClaudeResponse), ContentEvent r) none
      (r:={ type := .other "message", usage := some (createdUsage 5 100) }) rfl rfl
  exact ⟨hcumulative,streamed,plain,hstr,hplain,hiff.mpr ⟨rfl,rfl⟩⟩

theorem streamed_bill_differs : (claudeStreamHandler quietEnv .openAI .message "claude"
        (usageStream {} (createdUsage 1 0) (createdUsage 5 100) [] none)).toOption.map Settled.billed ≠
      (handleClaudeResponseData quietEnv .message "claude"
        { type := .other "message", usage := some (createdUsage 5 100) }).toOption.map Settled.billed := by
  decide +kernel

end LurusHub.ClaudeUpstream
