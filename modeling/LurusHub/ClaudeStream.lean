import LurusHub.StreamChunk
import LurusHub.Transition

/-! Conversion of an OpenAI-wire stream for a Claude-wire client. The converter knows the open block
only by its last message's kind, its index and the finish reason; the first chunk has a branch of
its own. Events are written out before the next call, so indices shared by pointer are values here.
-/
namespace LurusHub.ClaudeStream
open Pricing StreamChunk Transition

inductive LastMessageType
  | none | text | tools | thinking
  deriving DecidableEq, Repr

/-- The constants of the source; the initial one is not the empty string. -/
def LastMessageType.value : LastMessageType → String
  | .none => "none"
  | .text => "text"
  | .tools => "tools"
  | .thinking => "thinking"

structure ClaudeUsage where
  (inputTokens outputTokens cacheCreationInputTokens cacheReadInputTokens : Int64)
  deriving DecidableEq

inductive ContentBlock
  | toolUse (id name : String)
  | thinking
  | text
  deriving DecidableEq

inductive BlockDelta
  | textDelta (text : String)
  | thinkingDelta (thinking : String)
  | inputJsonDelta (partialJson : String)
  deriving DecidableEq

inductive ClaudeResponse
  | messageStart (id model : String) (inputTokens : Int64)
  | contentBlockStart (index : ℤ) (block : ContentBlock)
  | contentBlockDelta (index : ℤ) (delta : BlockDelta)
  | contentBlockStop (index : ℤ)
  | messageDelta (stopReason : String) (usage : ClaudeUsage)
  | messageStop
  deriving DecidableEq

structure Info where
  estimatePromptTokens : Int64
  sendResponseCount : ℕ := 0
  lastMessagesType : LastMessageType := .none
  index : ℤ := 0
  usage : Option Usage := none
  finishReason : String := ""
  done : Bool := false
  deriving DecidableEq

def anthropicInputTokens (u : Usage) : Int64 :=
  if u.promptTokensIncludeCached then
    let n := u.promptTokens-u.promptTokensDetails.cachedTokens-u.promptTokensDetails.cachedCreationTokens
    if n < 0 then 0 else n
  else u.promptTokens

def claudeTerminalUsage (u : Usage) : ClaudeUsage where
  inputTokens := anthropicInputTokens u
  outputTokens := u.completionTokens
  cacheCreationInputTokens := u.promptTokensDetails.cachedCreationTokens
  cacheReadInputTokens := u.promptTokensDetails.cachedTokens

def stopReasonOpenAI2Claude (reason : String) : String :=
  if reason = "stop" then "end_turn"
  else if reason = "stop_sequence" then "stop_sequence"
  else if reason = "length" || reason = "max_tokens" then "max_tokens"
  else if reason = "tool_calls" then "tool_use"
  else reason

/-- Nothing is sent, and the conversion stays open, while no usage is known. -/
def claudeTerminalEvents (chunkUsage : Option Usage) (info : Info) : List ClaudeResponse × Info :=
  match chunkUsage.or info.usage with
  | none => ([],info)
  | some usage =>
    ([.messageDelta (stopReasonOpenAI2Claude info.finishReason) (claudeTerminalUsage usage),.messageStop],
      { info with done := true })

def finishEvents (chunkUsage : Option Usage) (info : Info) : List ClaudeResponse × Info :=
  let (terminal,info') := claudeTerminalEvents chunkUsage info
  (.contentBlockStop info.index::terminal,info')

/-- The first chunk opens a block for its first tool call alone. -/
def firstToolCall (info : Info) : List ToolCallResponse → List ClaudeResponse × Info
  | [] => ([],info)
  | toolCall::_ =>
    (.contentBlockStart 0 (.toolUse toolCall.id toolCall.name)::
      (if toolCall.arguments ≠ "" then [.contentBlockDelta info.index (.inputJsonDelta toolCall.arguments)] else []),
      { info with lastMessagesType := .tools })

def firstContent (delta : ChoiceDelta) (info : Info) : List ClaudeResponse × Info :=
  if delta.getReasoningContent ≠ "" then
    ([.contentBlockStart info.index .thinking,
      .contentBlockDelta info.index (.thinkingDelta delta.getReasoningContent)],
      { info with lastMessagesType := .thinking })
  else if delta.getContentString ≠ "" then
    ([.contentBlockStart info.index .text,.contentBlockDelta info.index (.textDelta delta.getContentString)],
      { info with lastMessagesType := .text })
  else ([],info)

def convertFirst (chunk : ChatCompletionsStreamResponse) (info : Info) : List ClaudeResponse × Info :=
  let start := ClaudeResponse.messageStart chunk.id chunk.model info.estimatePromptTokens
  match chunk.choices with
  | [] => ([start],info)
  | choice::_ =>
    let (tools,info) := firstToolCall info choice.delta.toolCalls
    let (content,info) := firstContent choice.delta info
    match choice.doneReason with
    | none => (start::(tools++content),info)
    | some reason =>
      let (closing,info) := finishEvents chunk.usage { info with finishReason := reason }
      (start::(tools++content++closing),info)

/-- The block of a tool call is the call's own index, if it has one. -/
def blockIndex (info : Info) (several : Bool) (i : ℕ) (toolCall : ToolCallResponse) : ℤ :=
  match toolCall.index with
  | some index => index
  | none => if several then info.index+i else info.index

def convertToolCalls (several : Bool) : ℕ → List ToolCallResponse → Info → List ClaudeResponse × Info
  | _,[],info => ([],info)
  | i,toolCall::toolCalls,info =>
    let index := blockIndex info several i toolCall
    let start := if toolCall.name ≠ "" then
      [ClaudeResponse.contentBlockStart index (.toolUse toolCall.id toolCall.name)] else []
    let fragment := if toolCall.arguments ≠ "" then
      [ClaudeResponse.contentBlockDelta index (.inputJsonDelta toolCall.arguments)] else []
    let (rest,info') := convertToolCalls several (i+1) toolCalls { info with index := index }
    (start++fragment++rest,info')

/-- Tool calls of a later chunk; what else the chunk says is not looked at. -/
def laterToolCalls (toolCalls : List ToolCallResponse) (info : Info) : List ClaudeResponse × Info :=
  if info.lastMessagesType ≠ .tools then
    let (calls,info') := convertToolCalls (decide (1 < toolCalls.length)) 0 toolCalls
      { info with index := info.index+1, lastMessagesType := .tools }
    (.contentBlockStop info.index::calls,info')
  else convertToolCalls (decide (1 < toolCalls.length)) 0 toolCalls info

def laterThinking (reasoning : String) (info : Info) : List ClaudeResponse × Info :=
  ((if info.lastMessagesType ≠ .thinking then [.contentBlockStart info.index .thinking] else [])++
    [.contentBlockDelta info.index (.thinkingDelta reasoning)],{ info with lastMessagesType := .thinking })

def laterText (textContent : String) (info : Info) : List ClaudeResponse × Info :=
  match info.lastMessagesType with
  | .text => ([.contentBlockDelta info.index (.textDelta textContent)],info)
  | .none =>
    ([.contentBlockStart info.index .text,.contentBlockDelta info.index (.textDelta textContent)],
      { info with lastMessagesType := .text })
  | .thinking | .tools =>
    ([.contentBlockStop info.index,.contentBlockStart (info.index+1) .text,
      .contentBlockDelta (info.index+1) (.textDelta textContent)],
      { info with index := info.index+1, lastMessagesType := .text })

def laterContent (delta : ChoiceDelta) (info : Info) : List ClaudeResponse × Info :=
  if delta.toolCalls ≠ [] then laterToolCalls delta.toolCalls info
  else if delta.getReasoningContent ≠ "" then laterThinking delta.getReasoningContent info
  else if delta.getContentString ≠ "" then laterText delta.getContentString info
  else ([],info)

def convertLater (chunk : ChatCompletionsStreamResponse) (info : Info) : List ClaudeResponse × Info :=
  match chunk.choices with
  | [] => ([],info)
  | choice::_ =>
    match choice.doneReason with
    | none => laterContent choice.delta info
    | some reason =>
      let (content,info) := laterContent choice.delta { info with finishReason := reason }
      let (closing,info) := finishEvents chunk.usage info
      (content++closing,info)

def streamResponseOpenAI2Claude (chunk : ChatCompletionsStreamResponse) (info : Info) :
    List ClaudeResponse × Info :=
  if info.done then ([],info)
  else if info.sendResponseCount = 1 then convertFirst chunk info
  else convertLater chunk info

def closeClaudeStream (info : Info) : List ClaudeResponse × Info :=
  if info.done then ([],info)
  else
    -- an empty finish reason stands for a block that is still open
    let stop := if info.finishReason = "" && info.lastMessagesType.value ≠ "" then
      [ClaudeResponse.contentBlockStop info.index] else []
    let reason := if info.finishReason = "" then "stop" else info.finishReason
    let (terminal,info) := claudeTerminalEvents none
      { info with finishReason := reason, usage := some (info.usage.getD {}) }
    (stop++terminal,info)

structure Feed where
  chunk : ChatCompletionsStreamResponse
  usage : Option Usage := none
  deriving DecidableEq

/-- The state the converter is called with: chunks are numbered from 1. -/
def Info.entering (info : Info) (f : Feed) : Info :=
  { info with sendResponseCount := info.sendResponseCount+1, usage := f.usage.or info.usage }

structure Stream where
  info : Info
  sent : List ClaudeResponse
  deriving DecidableEq

def Stream.open (estimatePromptTokens : Int64) : Stream := ⟨{ estimatePromptTokens },[]⟩

def Stream.send (s : Stream) (r : List ClaudeResponse × Info) : Stream := ⟨r.2,s.sent++r.1⟩

def step (s : Stream) (f : Feed) : Stream := s.send (streamResponseOpenAI2Claude f.chunk (s.info.entering f))

def close (s : Stream) : Stream := s.send (closeClaudeStream s.info)

def converted (estimatePromptTokens : Int64) (feeds : List Feed) : Stream :=
  run step (.open estimatePromptTokens) feeds

/-! What one conversion can do. -/

def ClaudeResponse.isBlock : ClaudeResponse → Bool
  | .contentBlockStart .. | .contentBlockDelta .. | .contentBlockStop _ => true
  | _ => false

def ClaudeResponse.isTerminal : ClaudeResponse → Bool
  | .messageDelta .. | .messageStop => true
  | _ => false

lemma ClaudeResponse.not_terminal_of_block {e : ClaudeResponse} (h : e.isBlock) :
    e.isTerminal = false := by
  cases e <;> simp_all [isBlock,isTerminal]

structure Within (info : Info) (r : List ClaudeResponse × Info) : Prop where
  blocks : ∀ e ∈ r.1, e.isBlock = true
  count : r.2.sendResponseCount = info.sendResponseCount
  usage : r.2.usage = info.usage
  finishReason : r.2.finishReason = info.finishReason
  done : r.2.done = info.done

lemma firstToolCall_within (info : Info) (toolCalls : List ToolCallResponse) :
    Within info (firstToolCall info toolCalls) := by
  cases toolCalls with
  | nil => constructor <;> simp [firstToolCall]
  | cons toolCall toolCalls =>
    constructor <;> simp only [firstToolCall]
    split <;> simp [ClaudeResponse.isBlock]

lemma firstContent_within (delta : ChoiceDelta) (info : Info) : Within info (firstContent delta info) := by
  unfold firstContent
  split_ifs <;> constructor <;> simp [ClaudeResponse.isBlock]

lemma convertToolCalls_within (several : Bool) (i : ℕ) (toolCalls : List ToolCallResponse) (info : Info) :
    Within info (convertToolCalls several i toolCalls info) := by
  induction toolCalls generalizing i info with
  | nil => constructor <;> simp [convertToolCalls]
  | cons toolCall toolCalls ih =>
    have h := ih (i+1) { info with index := blockIndex info several i toolCall }
    refine ⟨?_,h.count,h.usage,h.finishReason,h.done⟩
    intro e he
    simp only [convertToolCalls,List.mem_append] at he
    rcases he with (he | he) | he
    · split at he <;> simp_all [ClaudeResponse.isBlock]
    · split at he <;> simp_all [ClaudeResponse.isBlock]
    · exact h.blocks e he

lemma laterToolCalls_within : Within info (laterToolCalls toolCalls info) := by
  unfold laterToolCalls
  split
  · have h := convertToolCalls_within (decide (1 < toolCalls.length)) 0 toolCalls
      { info with index := info.index+1, lastMessagesType := .tools }
    exact ⟨List.forall_mem_cons.mpr ⟨rfl,h.blocks⟩,h.count,h.usage,h.finishReason,h.done⟩
  · exact convertToolCalls_within _ 0 toolCalls info

lemma laterContent_within (delta : ChoiceDelta) (info : Info) : Within info (laterContent delta info) := by
  unfold laterContent
  split
  · exact laterToolCalls_within
  · split
    · unfold laterThinking
      constructor <;> simp only []
      split <;> simp [ClaudeResponse.isBlock]
    · split
      · unfold laterText
        split <;> constructor <;> simp [ClaudeResponse.isBlock]
      · constructor <;> simp

lemma Within.append (hr : Within info r) (hq : Within r.2 q) : Within info (r.1++q.1,q.2) where
  blocks e he := (List.mem_append.mp he).elim (hr.blocks e) (hq.blocks e)
  count := hq.count.trans hr.count
  usage := hq.usage.trans hr.usage
  finishReason := hq.finishReason.trans hr.finishReason
  done := hq.done.trans hr.done

lemma convertToolCalls_finishReason (reason : String) (i : ℕ) (toolCalls : List ToolCallResponse) (info : Info) :
    convertToolCalls several i toolCalls { info with finishReason := reason } =
      ((convertToolCalls several i toolCalls info).1,
        { (convertToolCalls several i toolCalls info).2 with finishReason := reason }) := by
  induction toolCalls generalizing i info with
  | nil => rfl
  | cons c cs ih =>
    have hindex : blockIndex { info with finishReason := reason } several i c = blockIndex info several i c := rfl
    simp only [convertToolCalls,hindex,ih (i+1) { info with index := blockIndex info several i c }]

theorem laterContent_finishReason (reason : String) (delta : ChoiceDelta) (info : Info) :
    laterContent delta { info with finishReason := reason } =
      ((laterContent delta info).1,{ (laterContent delta info).2 with finishReason := reason }) := by
  unfold laterContent
  split_ifs
  · unfold laterToolCalls
    dsimp only
    split
    · rw [convertToolCalls_finishReason reason 0 _ { info with index := info.index+1, lastMessagesType := .tools }]
    · exact convertToolCalls_finishReason reason 0 _ info
  · rfl
  · unfold laterText
    dsimp only
    split <;> rfl
  · rfl

def firstSaid (delta : ChoiceDelta) (info : Info) : List ClaudeResponse × Info :=
  let tools := firstToolCall info delta.toolCalls
  let content := firstContent delta tools.2
  (tools.1++content.1,content.2)

/-- What a chunk says, by its place in the stream. -/
def said (delta : ChoiceDelta) (info : Info) : List ClaudeResponse × Info :=
  if info.sendResponseCount = 1 then firstSaid delta info else laterContent delta info

/-- What a finish reason adds to that. -/
def ending (chunk : ChatCompletionsStreamResponse) (info : Info) : List ClaudeResponse × Info :=
  match chunk.doneReason with
  | none => ([],info)
  | some reason => finishEvents chunk.usage { info with finishReason := reason }

def begun (chunk : ChatCompletionsStreamResponse) (info : Info) : List ClaudeResponse :=
  if info.sendResponseCount = 1 then [.messageStart chunk.id chunk.model info.estimatePromptTokens] else []

lemma said_within (delta : ChoiceDelta) (info : Info) : Within info (said delta info) := by
  unfold said
  split
  · exact (firstToolCall_within info delta.toolCalls).append (firstContent_within delta _)
  · exact laterContent_within delta info

lemma ending_info (chunk : ChatCompletionsStreamResponse) (info : Info) : (ending chunk info).2 = { info with
      finishReason := chunk.doneReason.getD info.finishReason
      done := info.done || (chunk.doneReason.isSome && (chunk.usage.or info.usage).isSome) } := by
  unfold ending
  split
  · next h => simp [h]
  · next h =>
    simp only [finishEvents,claudeTerminalEvents,h]
    cases chunk.usage.or info.usage <;> simp

theorem stream_eq (hd : info.done = false) (chunk : ChatCompletionsStreamResponse) :
    streamResponseOpenAI2Claude chunk info =
      (begun chunk info++(said chunk.delta info).1++(ending chunk (said chunk.delta info).2).1,
        (ending chunk (said chunk.delta info).2).2) := by
  simp only [streamResponseOpenAI2Claude,hd,Bool.false_eq_true,if_false,said,firstSaid,begun]
  cases h : chunk.choices with
  | nil =>
    simp only [ChatCompletionsStreamResponse.delta,ending,ChatCompletionsStreamResponse.doneReason,convertFirst,convertLater,h]
    split <;> simp [firstToolCall,firstContent,laterContent]
  | cons choice choices =>
    simp only [delta_of_choices h,ending,doneReason_of_choices h,convertFirst,convertLater,h]
    split <;> cases choice.doneReason <;> simp [laterContent_finishReason]

lemma step_eq (h : s.info.done = false) (f : Feed) : step s f =
    let r := said f.chunk.delta (s.info.entering f)
    s.send (begun f.chunk (s.info.entering f)++r.1++(ending f.chunk r.2).1,(ending f.chunk r.2).2) :=
  congrArg s.send (stream_eq (by exact h) f.chunk)

lemma step_of_done (h : s.info.done) (f : Feed) : step s f = ⟨s.info.entering f,s.sent⟩ := by
  simp [step,Stream.send,streamResponseOpenAI2Claude,Info.entering,h]

lemma step_count (s : Stream) (f : Feed) : (step s f).info.sendResponseCount = s.info.sendResponseCount+1 := by
  cases hd : s.info.done with
  | true => simp [step_of_done hd,Info.entering]
  | false =>
    rw [step_eq hd]
    simp only [Stream.send,ending_info]
    exact (said_within f.chunk.delta (s.info.entering f)).count

end LurusHub.ClaudeStream
