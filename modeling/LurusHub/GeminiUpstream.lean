import LurusHub.JsonTree
import LurusHub.IndexedDeltas
import Mathlib.Data.Int.Notation

/-! Answers of a Gemini upstream streamed to an OpenAI-wire client. Every chunk numbers its tool
calls from 0; the first is sent as a header with names and a body with arguments. Arguments are JSON
documents whose texts follow one another. Call ids are random and left out. -/
namespace LurusHub.GeminiUpstream

open IndexedDeltas

structure FunctionCall where
  functionName : String
  arguments : Json

structure InlineData where
  (mimeType data : String)

structure GeminiPart where
  text : String := ""
  thought : Bool := false
  inlineData : Option InlineData := none
  functionCall : Option FunctionCall := none
  executableCode : Option (String × String) := none
  codeExecutionResult : Option String := none

structure GeminiChatCandidate where
  index : ℤ := 0
  parts : List GeminiPart := []
  finishReason : Option String := none

abbrev GeminiChatResponse := List GeminiChatCandidate

def backslash : Char := Char.ofNat 92

def escape? (r : Char) : Option Char :=
  if r = Char.ofNat 34 then some r
  else if r = backslash then some r
  else if r = '/' then some r
  else if r = 'b' then some (Char.ofNat 8)
  else if r = 'f' then some (Char.ofNat 12)
  else if r = 'n' then some (Char.ofNat 10)
  else if r = 'r' then some (Char.ofNat 13)
  else if r = 't' then some (Char.ofNat 9)
  else if r = Char.ofNat 39 then some r
  else none

/-- The replacement character counts as an encoding error; a backslash at the end is dropped. -/
def unescapeChars : Bool → List Char → Option (List Char)
  | _,[] => some []
  | escaped,r::s =>
    if r = Char.ofNat 0xfffd then none
    else if escaped then (unescapeChars false s).map ((escape? r).elim [backslash,r] ([·])++·)
    else if r = backslash then unescapeChars true s
    else (unescapeChars false s).map (r::·)

def unescapeString (s : String) : Option String := (unescapeChars false s.toList).map String.ofList

/-- Every string below a value; names of members stay. -/
def unescapeMapOrSlice : Json → Json
  | .obj ms => .obj (members ms)
  | .arr vs => .arr (elements vs)
  | .str s => .str ((unescapeString s).getD s)
  | v => v
where
  members : List (String × Json) → List (String × Json)
  | [] => []
  | (name,v)::ms => (name,unescapeMapOrSlice v)::members ms
  elements : List Json → List Json
  | [] => []
  | v::vs => unescapeMapOrSlice v::elements vs

/-- Arguments that are not a map are sent as they are. -/
def sentArguments : Json → Json
  | .obj ms => unescapeMapOrSlice (.obj ms)
  | v => v

structure ToolCallResponse where
  index : ℕ := 0
  name : String
  arguments : List Json

def getResponseToolCall (call : FunctionCall) : ToolCallResponse where
  name := call.functionName
  arguments := [sentArguments call.arguments]

structure ChoiceDelta where
  content : Option String := none
  reasoningContent : Option String := none
  toolCalls : List ToolCallResponse := []

structure Choice where
  index : ℤ := 0
  delta : ChoiceDelta := {}
  finishReason : Option String := none

abbrev ChatCompletionsStreamResponse := List Choice

def GeminiPart.call? (part : GeminiPart) : Option FunctionCall :=
  if part.inlineData.isSome then none else part.functionCall

def GeminiPart.isThought (part : GeminiPart) : Bool :=
  part.inlineData.isNone && part.functionCall.isNone && part.thought

def GeminiPart.text? (part : GeminiPart) : Option String :=
  match part.inlineData with
  | some inline =>
    if inline.mimeType.startsWith "image" then
      some ("![image](data:"++inline.mimeType++";base64,"++inline.data++")")
    else none
  | none =>
    if part.functionCall.isSome then none
    else if part.thought then some part.text
    else match part.executableCode,part.codeExecutionResult with
      | some (language,code),_ => some ("```"++language++"\n"++code++"\n```\n")
      | none,some output => some ("```output\n"++output++"\n```\n")
      | none,none => if part.text ≠ "\n" then some part.text else none

def GeminiChatCandidate.calls (candidate : GeminiChatCandidate) : List FunctionCall :=
  candidate.parts.filterMap GeminiPart.call?

def toolCallsOf (candidate : GeminiChatCandidate) : List ToolCallResponse :=
  ((candidate.calls.map getResponseToolCall).zipIdx).map fun p => { p.1 with index := p.2 }

def choiceOf (candidate : GeminiChatCandidate) : Choice :=
  let texts := "\n".intercalate (candidate.parts.filterMap GeminiPart.text?)
  let thought := candidate.parts.any GeminiPart.isThought
  { index := candidate.index
    delta := { content := if thought then none else some texts
               reasoningContent := if thought then some texts else none
               toolCalls := toolCallsOf candidate }
    finishReason :=
      if candidate.calls ≠ [] then some "tool_calls"
      else match candidate.finishReason with
        | none => none
        | some reason =>
          if reason = "STOP" then none
          else if reason = "MAX_TOKENS" then some "length"
          else some "content_filter" }

def streamResponseGeminiChat2OpenAI (response : GeminiChatResponse) : ChatCompletionsStreamResponse × Bool :=
  (response.map choiceOf,response.any fun candidate => candidate.finishReason = some "STOP")

def isToolCall (response : ChatCompletionsStreamResponse) : Bool :=
  response.head?.any fun choice => choice.delta.toolCalls.length > 0

def clearToolCalls (response : ChatCompletionsStreamResponse) : ChatCompletionsStreamResponse :=
  response.map fun choice => { choice with delta := { choice.delta with
    toolCalls := choice.delta.toolCalls.map fun call => { call with name := "" } } }

/-- The first choice is no longer finished; an empty reason does not count as one. -/
def clearFinish : ChatCompletionsStreamResponse → ChatCompletionsStreamResponse
  | [] => []
  | choice::choices =>
    { choice with finishReason := choice.finishReason.filter (· = "") }::choices

/-- The header of a stream, with the tool calls of the first chunk but not their arguments. -/
def startResponse (response : ChatCompletionsStreamResponse) : ChatCompletionsStreamResponse :=
  [{ delta := { content := some ""
                toolCalls := (response.head?.elim [] (·.delta.toolCalls)).map fun call => { call with arguments := [] } } }]

structure Handler where
  sendResponseCount : ℕ := 0
  finishReason : String := "stop"

def handleChunk (h : Handler) (chunk : GeminiChatResponse) : Handler × List ChatCompletionsStreamResponse :=
  let (response,isStop) := streamResponseGeminiChat2OpenAI chunk
  let finishReason := if h.sendResponseCount = 0 ∧ isToolCall response then "tool_calls" else h.finishReason
  let body :=
    if h.sendResponseCount = 0 then
      if isToolCall response then [startResponse response,clearFinish (clearToolCalls response)]
      else [[{ delta := { content := some "" } }],response]
    else [response]
  let sent := body++if isStop then [[{ finishReason := some finishReason }]] else []
  (⟨h.sendResponseCount+sent.length,finishReason⟩,sent)

/-- `GeminiChatStreamHandler`, up to the end of the upstream's stream. -/
def handleChunks : Handler → List GeminiChatResponse → List ChatCompletionsStreamResponse
  | _,[] => []
  | h,chunk::chunks => (handleChunk h chunk).2++handleChunks (handleChunk h chunk).1 chunks

end LurusHub.GeminiUpstream
