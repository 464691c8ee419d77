import LurusHub.StreamChunk

/-! Answers of a Claude upstream. `streamResponseClaude2OpenAI` turns an event into a chunk of the
OpenAI wire, `formatClaudeResponseInfo` collects what the settlement needs, and the handlers return
the billed usage. -/
namespace LurusHub.ClaudeUpstream
open Pricing StreamChunk

inductive RequestMode
  | completion | message
  deriving DecidableEq

inductive RelayFormat
  | openAI | claude
  deriving DecidableEq

inductive EventType
  | messageStart | contentBlockStart | contentBlockDelta | contentBlockStop | messageDelta | messageStop
  | other (type : String)
  deriving DecidableEq

inductive BlockType
  | text | thinking | toolUse
  | other (type : String)
  deriving DecidableEq

inductive DeltaType
  | textDelta | inputJsonDelta | signatureDelta | thinkingDelta
  | other (type : String)
  deriving DecidableEq

structure ClaudeCacheCreationUsage where
  ephemeral5mInputTokens : Int64 := 0
  ephemeral1hInputTokens : Int64 := 0
  deriving DecidableEq

structure ClaudeServerToolUse where
  webSearchRequests : Int64
  deriving DecidableEq

structure ClaudeUsage where
  inputTokens : Int64 := 0
  cacheCreationInputTokens : Int64 := 0
  cacheReadInputTokens : Int64 := 0
  outputTokens : Int64 := 0
  cacheCreation : Option ClaudeCacheCreationUsage := none
  serverToolUse : Option ClaudeServerToolUse := none
  deriving DecidableEq

def ClaudeUsage.getCacheCreation5mTokens (u : ClaudeUsage) : Int64 :=
  u.cacheCreation.elim 0 (·.ephemeral5mInputTokens)

def ClaudeUsage.getCacheCreation1hTokens (u : ClaudeUsage) : Int64 :=
  u.cacheCreation.elim 0 (·.ephemeral1hInputTokens)

def ClaudeUsage.webSearchRequests (u : ClaudeUsage) : Int64 := u.serverToolUse.elim 0 (·.webSearchRequests)

structure ContentBlock where
  type : BlockType
  text : Option String := none
  id : String := ""
  name : String := ""
  deriving DecidableEq

structure Delta where
  type : DeltaType := .other ""
  text : Option String := none
  partialJson : Option String := none
  thinking : Option String := none
  stopReason : Option String := none
  deriving DecidableEq

structure Message where
  id : String := ""
  model : String := ""
  usage : Option ClaudeUsage := none
  deriving DecidableEq

structure ClaudeResponse where
  type : EventType
  model : String := ""
  completion : String := ""
  stopReason : String := ""
  errorType : Option String := none
  usage : Option ClaudeUsage := none
  index : Option ℤ := none
  contentBlock : Option ContentBlock := none
  delta : Option Delta := none
  message : Option Message := none
  deriving DecidableEq

inductive StreamError
  | nilPointer
  | claudeError (type : String)
  | missingUsage
  | incomplete
  deriving DecidableEq

def stopReasonClaude2OpenAI (reason : String) : String :=
  if reason = "stop_sequence" then "stop"
  else if reason = "end_turn" then "stop"
  else if reason = "max_tokens" then "length"
  else if reason = "tool_use" then "tool_calls"
  else reason

def finishReasonOf (reason : String) : Option String :=
  let finishReason := stopReasonClaude2OpenAI reason
  if finishReason ≠ "null" then some finishReason else none

/-- The index of a tool call is the block's index less one, and 0 for the first block. -/
def fcIdx (index : Option ℤ) : ℤ :=
  match index with
  | none => 0
  | some i => if i-1 < 0 then 0 else i-1

/-- A chunk with tool calls carries no content. -/
def chunkOf (id model : String) (choice : Choice) (tools : List ToolCallResponse) : ChatCompletionsStreamResponse where
  id := id
  model := model
  choices := [if tools = [] then choice
    else { choice with delta := { choice.delta with content := none, sentToolCalls := some tools } }]

def blockStartChunk (r : ClaudeResponse) (block : ContentBlock) : ChatCompletionsStreamResponse :=
  let content := if block.type = .text then block.text else none
  let tools : List ToolCallResponse := if block.type = .toolUse then
    [{ index := some (fcIdx r.index), id := block.id, name := block.name, arguments := "" }] else []
  chunkOf "" r.model { delta := { content := content } } tools

def blockDeltaChunk (r : ClaudeResponse) (delta : Delta) : Except StreamError ChatCompletionsStreamResponse :=
  let chunk := chunkOf "" r.model
  match delta.type with
  | .inputJsonDelta => match delta.partialJson with
    | none => .error .nilPointer
    | some partialJson => .ok (chunk { delta := { content := delta.text } }
      [{ index := some (fcIdx r.index), arguments := partialJson }])
  | .signatureDelta => .ok (chunk { delta := { content := delta.text, reasoningContent := some "\n" } } [])
  | .thinkingDelta => .ok (chunk { delta := { content := delta.text, reasoningContent := delta.thinking } } [])
  | _ => .ok (chunk { delta := { content := delta.text } } [])

def streamResponseClaude2OpenAI (reqMode : RequestMode) (r : ClaudeResponse) :
    Except StreamError (Option ChatCompletionsStreamResponse) :=
  match reqMode with
  | .completion => .ok (some (chunkOf "" r.model
      { delta := { content := some r.completion }, finishReason := finishReasonOf r.stopReason } []))
  | .message => match r.type with
    | .messageStart => match r.message with
      | none => .ok none
      | some message => .ok (some (chunkOf message.id message.model { delta := { content := some "" } } []))
    | .contentBlockStart => .ok (r.contentBlock.map (blockStartChunk r))
    | .contentBlockDelta => match r.delta with
      | none => .ok (some (chunkOf "" r.model {} []))
      | some delta => (blockDeltaChunk r delta).map some
    | .messageDelta => .ok (some (chunkOf "" r.model
        { finishReason := (r.delta.bind (·.stopReason)).bind finishReasonOf } []))
    | _ => .ok none

structure ClaudeResponseInfo where
  responseId : String := ""
  model : String := ""
  responseText : String := ""
  usage : Usage := {}
  done : Bool := false
  webSearchRequests : Int64 := 0
  deriving DecidableEq

/-- The counters of `message_start` are the base. -/
def startUsage (usage : Usage) (u : ClaudeUsage) : Usage :=
  { usage with
    promptTokens := u.inputTokens
    promptTokensDetails := { usage.promptTokensDetails with
      cachedTokens := u.cacheReadInputTokens, cachedCreationTokens := u.cacheCreationInputTokens }
    claudeCacheCreation5mTokens := u.getCacheCreation5mTokens
    claudeCacheCreation1hTokens := u.getCacheCreation1hTokens
    completionTokens := u.outputTokens }

/-- A counter that `message_delta` reports replaces the one before; 0 is an absent one. -/
def reported (counter before : Int64) : Int64 := if 0 < counter then counter else before

def deltaUsage (usage : Usage) (u : ClaudeUsage) : Usage :=
  let promptTokens := reported u.inputTokens usage.promptTokens
  { usage with
    promptTokens := promptTokens
    promptTokensDetails := { usage.promptTokensDetails with
      cachedTokens := reported u.cacheReadInputTokens usage.promptTokensDetails.cachedTokens
      cachedCreationTokens := reported u.cacheCreationInputTokens usage.promptTokensDetails.cachedCreationTokens }
    completionTokens := u.outputTokens
    totalTokens := promptTokens+u.outputTokens }

/-- The searches are a running maximum. -/
def maxSearches (u : ClaudeUsage) (before : Int64) : Int64 :=
  match u.serverToolUse with
  | none => before
  | some stu => if before < stu.webSearchRequests then stu.webSearchRequests else before

/-- What an event adds to the record; `none` for an event that is not passed on. -/
def formatClaudeResponseInfo (requestMode : RequestMode) (r : ClaudeResponse) (info : ClaudeResponseInfo) :
    Option ClaudeResponseInfo :=
  match requestMode with
  | .completion => some { info with responseText := info.responseText++r.completion }
  | .message => match r.type with
    | .messageStart => match r.message with
      | none => none
      | some message => message.usage.map fun u =>
        { info with
          responseId := message.id
          model := message.model
          usage := startUsage info.usage u
          webSearchRequests := maxSearches u info.webSearchRequests }
    | .contentBlockDelta => r.delta.map fun delta =>
      { info with responseText := info.responseText++delta.text.getD ""++delta.thinking.getD "" }
    | .messageDelta => match r.usage with
      | none => some { info with done := true }
      | some u => some { info with
          usage := deltaUsage info.usage u
          webSearchRequests := maxSearches u info.webSearchRequests
          done := true }
    | .contentBlockStart => some info
    | _ => none

inductive Frame
  | chunk (response : Option ChatCompletionsStreamResponse)
  | event (response : ClaudeResponse)
  deriving DecidableEq

structure Handler where
  info : ClaudeResponseInfo := {}
  upstreamModelName : String := ""
  deriving DecidableEq

def handleStreamResponseData (format : RelayFormat) (requestMode : RequestMode) (h : Handler) (r : ClaudeResponse) :
    Except StreamError (Handler × List Frame) :=
  match r.errorType.filter (· ≠ "") with
  | some type => .error (.claudeError type)
  | none => match format with
    | .claude =>
      let info := (formatClaudeResponseInfo requestMode r h.info).getD h.info
      let upstreamModelName := if requestMode = .message ∧ r.type = .messageStart then
        r.message.elim h.upstreamModelName (·.model) else h.upstreamModelName
      .ok (⟨info,upstreamModelName⟩,[.event r])
    | .openAI => do
      let response ← streamResponseClaude2OpenAI requestMode r
      match formatClaudeResponseInfo requestMode r h.info with
      | none => return (h,[])
      | some info => return (⟨info,h.upstreamModelName⟩,
          [.chunk (response.map fun c => { c with id := info.responseId, model := info.model })])

theorem handleStreamResponseData_info (format : RelayFormat) (herror : r.errorType = none)
    (hres : streamResponseClaude2OpenAI mode r = .ok response) (h : Handler) :
    ∃ h' frames, handleStreamResponseData format mode h r = .ok (h',frames) ∧
      h'.info = (formatClaudeResponseInfo mode r h.info).getD h.info := by
  cases format with
  | claude =>
    simp only [handleStreamResponseData,herror]
    exact ⟨_,_,rfl,rfl⟩
  | openAI =>
    simp only [handleStreamResponseData,herror,hres]
    cases formatClaudeResponseInfo mode r h.info with
    | none | some info => exact ⟨_,_,rfl,rfl⟩

def handleEvents (format : RelayFormat) (requestMode : RequestMode) :
    Handler → List ClaudeResponse → Except StreamError (Handler × List Frame)
  | h,[] => .ok (h,[])
  | h,r::events => do
    let (h,frames) ← handleStreamResponseData format requestMode h r
    let (h,rest) ← handleEvents format requestMode h events
    return (h,frames++rest)

lemma handleEvents_append (hhead : handleEvents format mode h events = .ok (h₁,frames))
    (htail : handleEvents format mode h₁ events' = .ok (h₂,rest)) :
    handleEvents format mode h (events++events') = .ok (h₂,frames++rest) := by
  induction events generalizing h frames with
  | nil =>
    cases hhead
    exact htail
  | cons r events ih =>
    simp only [handleEvents,List.cons_append] at hhead ⊢
    cases hr : handleStreamResponseData format mode h r with
    | error e =>
      rw [hr] at hhead
      cases hhead
    | ok p =>
      cases hp : handleEvents format mode p.1 events with
      | error e => simp [hr,hp,bind,Except.bind] at hhead
      | ok q =>
        simp only [hr,hp,bind,Except.bind] at hhead
        obtain ⟨rfl,rfl⟩ := hhead
        simp [ih hp,bind,Except.bind,pure,Except.pure]

structure Settled where
  usage : Usage
  claudeWebSearchRequests : Int64 := 0
  deriving DecidableEq

structure Env where
  responseId : String
  estimateTokenByModel : String → String → Int64
  estimatePromptTokens : Int64
  (failover clientListening : Bool)

def responseText2Usage (env : Env) (responseText modelName : String) (promptTokens : Int64) : Usage :=
  let completionTokens := env.estimateTokenByModel modelName responseText
  { promptTokens := promptTokens, completionTokens := completionTokens, totalTokens := promptTokens+completionTokens }

/-- The usage of a stream that ended; without a final count the text is counted and the cache counters stay. -/
def finalUsage (env : Env) (requestMode : RequestMode) (h : Handler) : Usage :=
  match requestMode with
  | .completion => responseText2Usage env h.info.responseText h.upstreamModelName env.estimatePromptTokens
  | .message =>
    if h.info.usage.completionTokens = 0 ∨ h.info.done = false then
      let usage := responseText2Usage env h.info.responseText h.upstreamModelName h.info.usage.promptTokens
      { usage with
        promptTokensDetails := { usage.promptTokensDetails with
          cachedTokens := h.info.usage.promptTokensDetails.cachedTokens
          cachedCreationTokens := h.info.usage.promptTokensDetails.cachedCreationTokens }
        claudeCacheCreation5mTokens := h.info.usage.claudeCacheCreation5mTokens
        claudeCacheCreation1hTokens := h.info.usage.claudeCacheCreation1hTokens }
    else h.info.usage

def handleStreamFinalResponse (env : Env) (requestMode : RequestMode) (h : Handler) : Except StreamError Settled :=
  if requestMode ≠ .completion ∧ h.info.done = false ∧ env.clientListening then .error .incomplete
  else .ok ⟨finalUsage env requestMode h,if 0 < h.info.webSearchRequests then h.info.webSearchRequests else 0⟩

def claudeStreamHandler (env : Env) (format : RelayFormat) (requestMode : RequestMode) (upstreamModelName : String)
    (events : List ClaudeResponse) : Except StreamError Settled := do
  let start : Handler := ⟨{ responseId := env.responseId, model := upstreamModelName },upstreamModelName⟩
  let (h,_) ← handleEvents format requestMode start events
  if requestMode ≠ .completion ∧ h.info.done = false ∧ env.failover then .error .incomplete
  else handleStreamFinalResponse env requestMode h

def handleClaudeResponseData (env : Env) (requestMode : RequestMode) (upstreamModelName : String) (r : ClaudeResponse) :
    Except StreamError Settled :=
  match r.errorType.filter (· ≠ "") with
  | some type => .error (.claudeError type)
  | none =>
    let searches := (r.usage.bind (·.serverToolUse)).elim 0 fun stu =>
      if 0 < stu.webSearchRequests then stu.webSearchRequests else 0
    match requestMode with
    | .completion => .ok ⟨responseText2Usage env r.completion upstreamModelName env.estimatePromptTokens,searches⟩
    | .message => match r.usage with
      | none => .error .missingUsage
      | some u => .ok ⟨{ promptTokens := u.inputTokens
                         completionTokens := u.outputTokens
                         totalTokens := u.inputTokens+u.outputTokens
                         promptTokensDetails := {
                           cachedTokens := u.cacheReadInputTokens, cachedCreationTokens := u.cacheCreationInputTokens }
                         claudeCacheCreation5mTokens := u.getCacheCreation5mTokens
                         claudeCacheCreation1hTokens := u.getCacheCreation1hTokens },searches⟩

end LurusHub.ClaudeUpstream
