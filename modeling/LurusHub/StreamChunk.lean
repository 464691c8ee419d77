import LurusHub.Pricing

/-! The chunks of a chat-completions stream on the OpenAI wire. An optional field is a
pointer of the source: `none` is a field the upstream did not send, `some ""` one it
sent empty, and the two are not always treated alike. -/
namespace LurusHub.StreamChunk
open Pricing

structure ToolCallResponse where
  index : Option ℤ := none
  id : String := ""
  name : String := ""
  arguments : String := ""
  deriving DecidableEq

structure ChoiceDelta where
  content : Option String := none
  reasoningContent : Option String := none
  reasoning : Option String := none
  sentToolCalls : Option (List ToolCallResponse) := none
  deriving DecidableEq

/-- The tool calls of a delta; `none` and an empty list differ only where the field itself is tested. -/
def ChoiceDelta.toolCalls (delta : ChoiceDelta) : List ToolCallResponse := delta.sentToolCalls.getD []

def ChoiceDelta.getContentString (delta : ChoiceDelta) : String := delta.content.getD ""

def ChoiceDelta.getReasoningContent (delta : ChoiceDelta) : String :=
  (delta.reasoningContent.or delta.reasoning).getD ""

@[simp] lemma toolCalls_default : ({} : ChoiceDelta).toolCalls = [] := rfl
@[simp] lemma getContentString_default : ({} : ChoiceDelta).getContentString = "" := rfl
@[simp] lemma getReasoningContent_default : ({} : ChoiceDelta).getReasoningContent = "" := rfl

structure Choice where
  index : ℤ := 0
  delta : ChoiceDelta := {}
  finishReason : Option String := none
  deriving DecidableEq

structure ChatCompletionsStreamResponse where
  id : String := ""
  model : String := ""
  choices : List Choice := []
  usage : Option Usage := none
  deriving DecidableEq

/-- The finish reason of a choice, if it is there and not empty. -/
def Choice.doneReason (choice : Choice) : Option String := choice.finishReason.filter (· ≠ "")

lemma Choice.doneReason_ne_empty {choice : Choice} (h : choice.doneReason = some reason) :
    reason ≠ "" := by
  simpa using (Option.filter_eq_some_iff.mp h).2

/-- What a chunk says, by its first choice; a chunk without choices says nothing. -/
def ChatCompletionsStreamResponse.delta (chunk : ChatCompletionsStreamResponse) : ChoiceDelta :=
  (chunk.choices.head?.map Choice.delta).getD {}

def ChatCompletionsStreamResponse.doneReason (chunk : ChatCompletionsStreamResponse) : Option String :=
  chunk.choices.head?.bind Choice.doneReason

section
variable {chunk : ChatCompletionsStreamResponse}

lemma delta_of_choices (h : chunk.choices = choice::choices) : chunk.delta = choice.delta := by
  simp [ChatCompletionsStreamResponse.delta,h]

lemma doneReason_of_choices (h : chunk.choices = choice::choices) : chunk.doneReason = choice.doneReason := by
  simp [ChatCompletionsStreamResponse.doneReason,h]

lemma doneReason_ne_empty (h : chunk.doneReason = some reason) : reason ≠ "" := by
  obtain ⟨choice,_,hc⟩ := Option.bind_eq_some_iff.mp h
  exact Choice.doneReason_ne_empty hc

end

end LurusHub.StreamChunk
