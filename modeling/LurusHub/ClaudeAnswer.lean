import LurusHub.ChatToClaude
import LurusHub.ClaudeStream
import LurusHub.JsonTree

/-! Whole answers between the OpenAI and the Claude wire. Towards Claude the finish reason decides whether the text or the tool
calls of a choice are sent; back, every text block replaces the text before it. -/
namespace LurusHub.ClaudeAnswer

open ChatToClaude ClaudeStream List

def stringContent : Content → String
  | .null => ""
  | .str s => s
  | .parts ps => String.join (ps.filterMap fun | .text t => some t | .image _ => none)

structure OpenAITextResponseChoice where
  content : Content
  reasoningContent : String := ""
  toolCalls : List ToolCall := []
  finishReason : String

structure ClaudeMediaMessage where
  type : String
  text : Option String := none
  thinking : Option String := none
  id : String := ""
  name : String := ""
  input : Json := .null

def ClaudeMediaMessage.getText (message : ClaudeMediaMessage) : String := message.text.getD ""

structure ClaudeResponse where
  content : List ClaudeMediaMessage
  stopReason : String

structure Codec where
  unmarshal : String → Option Json
  marshal : Json → String

variable (codec : Codec)

/-- Arguments that are not a map are sent as their text. -/
def claudeInput (arguments : String) : Json := (codec.unmarshal arguments).getD (.str arguments)

def claudeToolUse (toolUse : ToolCall) : ClaudeMediaMessage where
  type := "tool_use"
  id := toolUse.id
  name := toolUse.name
  input := claudeInput codec toolUse.arguments

def claudeContents (choice : OpenAITextResponseChoice) : List ClaudeMediaMessage :=
  if choice.finishReason = "tool_calls" then choice.toolCalls.map (claudeToolUse codec)
  else [{ type := "text", text := some (stringContent choice.content) }]

def responseOpenAI2Claude (choices : List OpenAITextResponseChoice) : ClaudeResponse where
  content := choices.flatMap (claudeContents codec)
  stopReason := choices.foldl (fun _ choice => stopReasonOpenAI2Claude choice.finishReason) ""

def stopReasonClaude2OpenAI (reason : String) : String :=
  if reason = "stop_sequence" then "stop"
  else if reason = "end_turn" then "stop"
  else if reason = "max_tokens" then "length"
  else if reason = "tool_use" then "tool_calls"
  else reason

def toolCallResponse (message : ClaudeMediaMessage) : ToolCall := ⟨message.id,message.name,codec.marshal message.input⟩

structure Reading where
  responseText : String
  thinkingContent : String := ""
  tools : List ToolCall := []

def readBlock (r : Reading) (message : ClaudeMediaMessage) : Reading :=
  if message.type = "tool_use" then { r with tools := r.tools++[toolCallResponse codec message] }
  else if message.type = "thinking" then { r with thinkingContent := message.thinking.getD r.thinkingContent }
  else if message.type = "text" then { r with responseText := message.getText }
  else r

def responseClaude2OpenAI (claudeResponse : ClaudeResponse) : OpenAITextResponseChoice :=
  let r := claudeResponse.content.foldl (readBlock codec) ⟨(claudeResponse.content.head?.map (·.getText)).getD "","",[]⟩
  ⟨.str r.responseText,r.thinkingContent,r.tools,stopReasonClaude2OpenAI claudeResponse.stopReason⟩

def textBlocks (content : List ClaudeMediaMessage) : List String :=
  content.filterMap fun message => if message.type = "text" then some message.getText else none

def toolUseBlocks (content : List ClaudeMediaMessage) : List ClaudeMediaMessage := content.filter (·.type = "tool_use")

/-- The text of a choice as text blocks, and its tool calls as tool use blocks. -/
def Carries (choice : OpenAITextResponseChoice) (content : List ClaudeMediaMessage) : Prop :=
  (stringContent choice.content ≠ "" → String.join (textBlocks content) = stringContent choice.content) ∧
    (toolUseBlocks content).map (fun message => (message.id,message.name)) =
      choice.toolCalls.map fun call => (call.id,call.name)

def Reads (content : List ClaudeMediaMessage) (choice : OpenAITextResponseChoice) : Prop :=
  stringContent choice.content = String.join (textBlocks content) ∧
    choice.toolCalls = (toolUseBlocks content).map (toolCallResponse codec)

def RoundTrips (choice : OpenAITextResponseChoice) : Prop :=
  let back := responseClaude2OpenAI codec (responseOpenAI2Claude codec [choice])
  stringContent back.content = stringContent choice.content ∧ back.toolCalls = choice.toolCalls

/-- Nothing but what the finish reason announces. -/
def OneKind (choice : OpenAITextResponseChoice) : Prop :=
  if choice.finishReason = "tool_calls" then stringContent choice.content = "" else choice.toolCalls = []

variable {codec}

lemma foldl_readBlock (r : Reading) :
    (content.foldl (readBlock codec) r).responseText = (textBlocks content).getLast?.getD r.responseText ∧
      (content.foldl (readBlock codec) r).tools = r.tools++(toolUseBlocks content).map (toolCallResponse codec) := by
  induction content generalizing r with
  | nil => simp [textBlocks,toolUseBlocks]
  | cons message content ih =>
    obtain ⟨htext,htoo⟩ := ih (readBlock codec r message)
    rw [foldl_cons,htext,htoo]
    by_cases htool : message.type = "tool_use"
    · simp [readBlock,textBlocks,toolUseBlocks,htool]
    by_cases hthinking : message.type = "thinking"
    · simp [readBlock,textBlocks,toolUseBlocks,hthinking]
    by_cases hmes : message.type = "text"
    · simp [readBlock,textBlocks,toolUseBlocks,hmes,getLast?_cons]
    · simp [readBlock,textBlocks,toolUseBlocks,htool,hthinking,hmes]

theorem responseClaude2OpenAI_text (codec : Codec) (stopReason : String)
    (hshape : ∀ message ∈ content, message.type ≠ "text" → message.text = none) :
    stringContent (responseClaude2OpenAI codec ⟨content,stopReason⟩).content =
    (textBlocks content).getLast?.getD "" := by
  refine (foldl_readBlock _).1.trans ?_
  cases content with
  | nil => rfl
  | cons message content =>
    by_cases hmes : message.type = "text"
    · simp [textBlocks,hmes,getLast?_cons]
    · simp [ClaudeMediaMessage.getText,hshape message mem_cons_self hmes]

lemma responseClaude2OpenAI_tools (codec : Codec) (content : List ClaudeMediaMessage) (stopReason : String) :
    (responseClaude2OpenAI codec ⟨content,stopReason⟩).toolCalls =
    (toolUseBlocks content).map (toolCallResponse codec) :=
  (foldl_readBlock _).2

lemma join_eq_empty_iff : String.join texts = "" ↔ ∀ t ∈ texts, t = "" := by
  induction texts with
  | nil => simp
  | cons t texts ih => simp [ih]

lemma last_eq_join_iff : texts.getLast?.getD "" = String.join texts ↔ ∀ t ∈ texts.dropLast, t = "" := by
  rcases eq_nil_or_concat texts with rfl | ⟨before,t,rfl⟩
  · simp
  · rw [← join_eq_empty_iff,eq_comm]
    simp [String.join_cons]

lemma content_one : (responseOpenAI2Claude codec [choice]).content = claudeContents codec choice := by
  simp [responseOpenAI2Claude]

lemma textBlocks_claudeContents : textBlocks (claudeContents codec choice) =
    if choice.finishReason = "tool_calls" then [] else [stringContent choice.content] := by
  by_cases hfinish : choice.finishReason = "tool_calls"
  · simp [claudeContents,textBlocks,claudeToolUse,hfinish]
  · simp [claudeContents,textBlocks,ClaudeMediaMessage.getText,hfinish]

lemma toolUseBlocks_claudeContents : toolUseBlocks (claudeContents codec choice) =
    if choice.finishReason = "tool_calls" then choice.toolCalls.map (claudeToolUse codec) else [] := by
  by_cases hfinish : choice.finishReason = "tool_calls"
  · simp [claudeContents,toolUseBlocks,claudeToolUse,hfinish]
  · simp [claudeContents,toolUseBlocks,hfinish]

lemma carries_iff : Carries choice (responseOpenAI2Claude codec [choice]).content ↔ OneKind choice := by
  rw [Carries,content_one,textBlocks_claudeContents,toolUseBlocks_claudeContents,OneKind]
  by_cases hfinish : choice.finishReason = "tool_calls"
  · rw [if_pos hfinish,if_pos hfinish,if_pos hfinish]
    refine ⟨fun hboth => ?_,fun hempty => ⟨fun htext => absurd hempty htext,by rw [map_map]; rfl⟩⟩
    by_contra htext
    exact htext (hboth.1 htext).symm
  · rw [if_neg hfinish,if_neg hfinish,if_neg hfinish,map_nil,nil_eq,map_eq_nil_iff]
    exact and_iff_right fun _ => by simp [String.join_cons]

lemma roundTrips_iff : RoundTrips codec choice ↔
    OneKind choice ∧ ∀ call ∈ choice.toolCalls, codec.marshal (claudeInput codec call.arguments) = call.arguments := by
  have hshape : ∀ message ∈ claudeContents codec choice, message.type ≠ "text" → message.text = none := by
    by_cases hfinish : choice.finishReason = "tool_calls" <;> simp [claudeContents,hfinish,claudeToolUse]
  have htext := responseClaude2OpenAI_text codec (responseOpenAI2Claude codec [choice]).stopReason hshape
  have htoo := responseClaude2OpenAI_tools codec (claudeContents codec choice)
    (responseOpenAI2Claude codec [choice]).stopReason
  rw [← content_one] at htext htoo
  rw [RoundTrips,htext,htoo,content_one,textBlocks_claudeContents,toolUseBlocks_claudeContents,OneKind]
  by_cases hfinish : choice.finishReason = "tool_calls"
  · have hcalls : (choice.toolCalls.map (claudeToolUse codec)).map (toolCallResponse codec) = choice.toolCalls ↔
        ∀ call ∈ choice.toolCalls, codec.marshal (claudeInput codec call.arguments) = call.arguments := by
      conv_lhs => rw [map_map,← map_id choice.toolCalls,map_map]
      rw [map_inj_left]
      exact forall₂_congr fun call _ => by cases call; simp [toolCallResponse,claudeToolUse]
    rw [if_pos hfinish,if_pos hfinish,if_pos hfinish,hcalls]
    exact and_congr_left' eq_comm
  · rw [if_neg hfinish,if_neg hfinish,if_neg hfinish]
    simp only [getLast?_singleton,Option.getD_some,true_and]
    refine ⟨fun hnil => ⟨hnil.symm,by simp [← hnil]⟩,fun hboth => hboth.1.symm⟩

/-- What a choice keeps towards Claude, a message back, and a choice both ways. -/
theorem answers_survive_iff (codec : Codec) (choice : OpenAITextResponseChoice) (response : ClaudeResponse)
    (hshape : ∀ message ∈ response.content, message.type ≠ "text" → message.text = none) :
    (Carries choice (responseOpenAI2Claude codec [choice]).content ↔ OneKind choice) ∧
      (Reads codec response.content (responseClaude2OpenAI codec response) ↔
      ∀ t ∈ (textBlocks response.content).dropLast, t = "") ∧
      (RoundTrips codec choice ↔
        OneKind choice ∧
        ∀ call ∈ choice.toolCalls, codec.marshal (claudeInput codec call.arguments) = call.arguments) := by
  refine ⟨carries_iff,?_,roundTrips_iff⟩
  rw [Reads,responseClaude2OpenAI_text codec _ hshape,responseClaude2OpenAI_tools,last_eq_join_iff,and_iff_left rfl]

def textBlock (text : String) : ClaudeMediaMessage := { type := "text", text := some text }

def emptyObjects : Codec where
  unmarshal s := if s = "\x7b\x7d" then some (.obj []) else none
  marshal _ := "\x7b\x7d"

theorem answers_survive_call : Reads emptyObjects [textBlock "hi"]
    (responseClaude2OpenAI emptyObjects ⟨[textBlock "hi"],"end_turn"⟩) ∧
    RoundTrips emptyObjects ⟨.null,"",[⟨"1","f","\x7b\x7d"⟩],"tool_calls"⟩ := by
  have hall := answers_survive_iff emptyObjects ⟨.null,"",[⟨"1","f","\x7b\x7d"⟩],"tool_calls"⟩
    ⟨[textBlock "hi"],"end_turn"⟩ (by simp [textBlock])
  exact ⟨hall.2.1.mpr (by simp [textBlocks,textBlock]),hall.2.2.mpr ⟨rfl,by simp [emptyObjects]⟩⟩

theorem answers_lost :
    textBlocks (responseOpenAI2Claude emptyObjects [⟨.str "hi","",[⟨"1","f","\x7b\x7d"⟩],"tool_calls"⟩]).content = [] ∧
      toolUseBlocks (responseOpenAI2Claude emptyObjects [⟨.str "","",[⟨"1","f","\x7b\x7d"⟩],"length"⟩]).content = [] ∧
      (responseClaude2OpenAI emptyObjects ⟨[textBlock "a",textBlock "b"],"end_turn"⟩).content = .str "b" := by
  refine ⟨?_,?_,rfl⟩
  · rw [content_one,textBlocks_claudeContents,if_pos rfl]
  · rw [content_one,toolUseBlocks_claudeContents,if_neg (by decide)]

end LurusHub.ClaudeAnswer
