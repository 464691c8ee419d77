import Mathlib

/-! `GeminiToOpenAIRequest`: a Gemini request as a chat request. Function calls are numbered from
one within their turn, and a function response names the number of calls its own turn had so far.
Calls and responses live in different turns, so that is zero. -/
namespace LurusHub.GeminiRequest
open List

structure FunctionCall (J : Type) where
  functionName : String
  arguments : J

structure GeminiFunctionResponse (J : Type) where
  name : String
  response : J

structure GeminiInlineData where
  (mimeType data : String)

structure GeminiFileData where
  (mimeType fileUri : String)

structure GeminiPart (J : Type) where
  text : String := ""
  inlineData : Option GeminiInlineData := none
  fileData : Option GeminiFileData := none
  functionCall : Option (FunctionCall J) := none
  functionResponse : Option (GeminiFunctionResponse J) := none

structure GeminiChatContent (J : Type) where
  role : String
  parts : List (GeminiPart J)

structure GeminiChatGenerationConfig where
  temperature : Option ℚ := none
  topP : ℚ := 0
  topK : ℚ := 0
  maxOutputTokens : ℕ := 0
  candidateCount : ℤ := 0
  stopSequences : List String := []

structure FunctionRequest (J : Type) where
  name : String
  description : String := ""
  parameters : Option J := none

structure GeminiChatTool (J : Type) where
  functionDeclarations : Option (List (FunctionRequest J)) := none

structure GeminiChatRequest (J : Type) where
  contents : List (GeminiChatContent J)
  generationConfig : GeminiChatGenerationConfig := {}
  tools : List (GeminiChatTool J) := []
  systemInstructions : Option (GeminiChatContent J) := none

inductive MediaContent
  | text (text : String)
  | imageUrl (url detail mimeType : String)
  deriving DecidableEq

inductive Content
  | unset
  | str (text : String)
  | media (contents : List MediaContent)
  deriving DecidableEq

structure ToolCallRequest where
  (id name arguments : String)
  deriving DecidableEq

structure Message where
  role : String
  content : Content := .unset
  toolCalls : List ToolCallRequest := []
  toolCallId : String := ""
  deriving DecidableEq

structure GeneralOpenAIRequest (J : Type) where
  model : String
  stream : Bool
  messages : List Message := []
  temperature : Option ℚ := none
  topP : ℚ := 0
  topK : ℤ := 0
  maxTokens : ℕ := 0
  stop : List String := []
  n : ℤ := 0
  tools : List (FunctionRequest J) := []

def convertGeminiRoleToOpenAI (geminiRole : String) : String :=
  if geminiRole = "user" then "user"
  else if geminiRole = "model" then "assistant"
  else if geminiRole = "function" then "function"
  else "user"

section convert
variable {J : Type} (toJSONString : J → String)

structure Turn where
  mediaContents : List MediaContent := []
  toolCalls : List ToolCallRequest := []
  toolMessages : List Message := []

def callID (n : ℕ) : String := "call_" ++ toString n

/-- The first field that is set decides what a part is. -/
def scanPart (turn : Turn) (part : GeminiPart J) : Turn :=
  if part.text ≠ "" then { turn with mediaContents := turn.mediaContents++[.text part.text] }
  else match part.inlineData with
  | some data =>
    let url := "data:" ++ data.mimeType ++ ";base64," ++ data.data
    { turn with mediaContents := turn.mediaContents++[.imageUrl url "auto" data.mimeType] }
  | none => match part.fileData with
  | some data => { turn with mediaContents := turn.mediaContents++[.imageUrl data.fileUri "auto" data.mimeType] }
  | none => match part.functionCall with
  | some call =>
    { turn with toolCalls := turn.toolCalls++
        [⟨callID (turn.toolCalls.length+1),call.functionName,toJSONString call.arguments⟩] }
  | none => match part.functionResponse with
  | some response =>
    { turn with toolMessages := turn.toolMessages++
        [{ role := "tool", content := .str (toJSONString response.response)
           toolCallId := callID turn.toolCalls.length }] }
  | none => turn

/-- The message of the turn itself: its calls alone, a single text, or its media. -/
def turnMessage (role : String) (turn : Turn) : List Message :=
  if turn.toolCalls ≠ [] then [{ role, toolCalls := turn.toolCalls }]
  else match turn.mediaContents with
    | [] => []
    | [.text text] => [{ role, content := .str text }]
    | contents => [{ role, content := .media contents }]

def convertContent (content : GeminiChatContent J) : List Message :=
  let turn := content.parts.foldl (scanPart toJSONString) {}
  turn.toolMessages++turnMessage (convertGeminiRoleToOpenAI content.role) turn

def extractTextFromGeminiParts (parts : List (GeminiPart J)) : String :=
  "\n".intercalate ((parts.map (·.text)).filter (· ≠ ""))

def systemMessages (request : GeminiChatRequest J) : List Message :=
  match request.systemInstructions with
  | some content => [{ role := "system", content := .str (extractTextFromGeminiParts content.parts) }]
  | none => []

def geminiToOpenAIRequest (upstreamModelName : String) (isStream : Bool) (request : GeminiChatRequest J) :
    GeneralOpenAIRequest J :=
  let config := request.generationConfig
  { model := upstreamModelName
    stream := isStream
    messages := systemMessages request++request.contents.flatMap (convertContent toJSONString)
    temperature := config.temperature
    topP := if 0 < config.topP then config.topP else 0
    topK := if 0 < config.topK then ⌊config.topK⌋ else 0
    maxTokens := config.maxOutputTokens
    stop := config.stopSequences.take 4
    n := if 0 < config.candidateCount then config.candidateCount else 0
    tools := request.tools.flatMap fun tool => tool.functionDeclarations.getD [] }

end convert

/-! Links between tool messages and calls. -/

def callsBefore (messages : List Message) (n : ℕ) : List ToolCallRequest :=
  (messages.take n).flatMap fun m => if m.role = "assistant" then m.toolCalls else []

/-- The number of tool messages in front of place `n`, which is the number of the call that the next
one answers. -/
def answered (messages : List Message) (n : ℕ) : ℕ := (messages.take n).countP (·.role = "tool")

/-- Every tool message names one earlier call and no other, the one it answers. -/
def Linked (messages : List Message) : Prop :=
  ∀ n message, messages[n]? = some message → message.role = "tool" →
    (callsBefore messages n).countP (·.id = message.toolCallId) = 1 ∧
      ((callsBefore messages n)[answered messages n]?).map (·.id) = some message.toolCallId

section parts
variable {J : Type}

/-- The part has no earlier field set that would hide a call or a response. -/
def GeminiPart.plain (part : GeminiPart J) : Bool :=
  part.text = "" && part.inlineData.isNone && part.fileData.isNone

def GeminiPart.call? (part : GeminiPart J) : Option (FunctionCall J) :=
  if part.plain then part.functionCall else none

def GeminiPart.response? (part : GeminiPart J) : Option (GeminiFunctionResponse J) :=
  if part.plain && part.functionCall.isNone then part.functionResponse else none

end parts

structure Round (J : Type) where
  callParts : List (GeminiPart J)
  replyRole : String
  replyParts : List (GeminiPart J)
  calling : ∀ part ∈ callParts, part.response? = none
  replying : ∀ part ∈ replyParts, part.call? = none
  inOrder : replyParts.filterMap (fun part => part.response?.map (·.name)) =
    callParts.filterMap fun part => part.call?.map (·.functionName)

namespace Round
variable {J : Type}

def calls (r : Round J) : List (FunctionCall J) := r.callParts.filterMap GeminiPart.call?

def contents (r : Round J) : List (GeminiChatContent J) := [⟨"model",r.callParts⟩,⟨r.replyRole,r.replyParts⟩]

end Round

section scan
variable {J : Type} {toJSONString : J → String}

lemma scanPart_cases : (∃ call, part.call? = some call ∧ part.response? = none ∧
      (scanPart toJSONString turn part).toolCalls = turn.toolCalls++
        [⟨callID (turn.toolCalls.length+1),call.functionName,toJSONString call.arguments⟩] ∧
      (scanPart toJSONString turn part).toolMessages = turn.toolMessages) ∨
    (∃ response, part.call? = none ∧ part.response? = some response ∧
      (scanPart toJSONString turn part).toolCalls = turn.toolCalls ∧
      (scanPart toJSONString turn part).toolMessages = turn.toolMessages++
        [{ role := "tool", content := .str (toJSONString response.response)
           toolCallId := callID turn.toolCalls.length }]) ∨
    (part.call? = none ∧ part.response? = none ∧
      (scanPart toJSONString turn part).toolCalls = turn.toolCalls ∧
      (scanPart toJSONString turn part).toolMessages = turn.toolMessages) := by
  obtain ⟨text,inline,file,call,response⟩ := part
  by_cases htext : text = ""
  · cases inline <;> cases file <;> cases call <;> cases response <;>
      simp [scanPart,GeminiPart.call?,GeminiPart.response?,GeminiPart.plain,htext]
  · simp [scanPart,GeminiPart.call?,GeminiPart.response?,GeminiPart.plain,htext]

def Numbered (calls : List ToolCallRequest) : Prop := ∀ call ∈ calls, ∃ n, call.id = callID (n+1)

lemma scan_numbered (parts : List (GeminiPart J)) (h : Numbered turn.toolCalls) :
    Numbered (parts.foldl (scanPart toJSONString) turn).toolCalls := by
  induction parts generalizing turn with
  | nil => exact h
  | cons part parts ih =>
    refine ih ?_
    rcases scanPart_cases with
      ⟨call,_,_,hcalls,_⟩ | ⟨_,_,_,hcalls,_⟩ | ⟨_,_,hcalls,_⟩
    · rw [hcalls]
      exact forall_mem_append.mpr ⟨h,forall_mem_singleton.mpr ⟨turn.toolCalls.length,rfl⟩⟩
    · rw [hcalls]
      exact h
    · rw [hcalls]
      exact h

lemma scan_calling (toJSONString : J → String) (parts : List (GeminiPart J))
    (h : ∀ part ∈ parts, part.response? = none) (turn : Turn) :
    (parts.foldl (scanPart toJSONString) turn).toolMessages = turn.toolMessages := by
  induction parts generalizing turn with
  | nil => rfl
  | cons part parts ih =>
    have hrest := ih (fun p hp => h p (mem_cons_of_mem _ hp)) (scanPart toJSONString turn part)
    rw [foldl_cons,hrest]
    have hnone := h part mem_cons_self
    rcases scanPart_cases with
      ⟨_,_,_,_,hmes⟩ | ⟨_,_,hsome,_⟩ | ⟨_,_,_,hmes⟩
    · exact hmes
    · rw [hnone] at hsome
      cases hsome
    · exact hmes

lemma scan_replying (toJSONString : J → String) (parts : List (GeminiPart J)) (h : ∀ part ∈ parts, part.call? = none)
    (hturn : turn.toolCalls = []) : (parts.foldl (scanPart toJSONString) turn).toolCalls = [] ∧
    (parts.foldl (scanPart toJSONString) turn).toolMessages = turn.toolMessages++
      (parts.filterMap GeminiPart.response?).map fun response =>
        { role := "tool", content := .str (toJSONString response.response), toolCallId := callID 0 } := by
  induction parts generalizing turn with
  | nil => simpa using hturn
  | cons part parts ih =>
    have hnone := h part mem_cons_self
    have hparts : ∀ p ∈ parts, p.call? = none := fun p hp => h p (mem_cons_of_mem _ hp)
    rcases scanPart_cases with
      ⟨_,hsome,_⟩ | ⟨response,_,hres,hcalls,hmes⟩ | ⟨_,hres,hcalls,hmes⟩
    · rw [hnone] at hsome
      cases hsome
    · have hrest := ih hparts (hcalls.trans hturn)
      rw [foldl_cons,hrest.2,hmes,hturn]
      exact ⟨hrest.1,by simp [hres]⟩
    · have hrest := ih hparts (hcalls.trans hturn)
      rw [foldl_cons,hrest.2,hmes]
      exact ⟨hrest.1,by simp [hres]⟩

lemma mem_turnMessage (h : m ∈ turnMessage role turn) :
    m.role = role ∧ (m.toolCalls = [] ∨ m.toolCalls = turn.toolCalls) := by
  unfold turnMessage at h
  split at h
  · rw [mem_singleton.mp h]
    exact ⟨rfl,.inr rfl⟩
  · split at h
    · cases h
    · rw [mem_singleton.mp h]
      exact ⟨rfl,.inl rfl⟩
    · rw [mem_singleton.mp h]
      exact ⟨rfl,.inl rfl⟩

lemma convertGeminiRoleToOpenAI_ne_tool : convertGeminiRoleToOpenAI role ≠ "tool" := by
  unfold convertGeminiRoleToOpenAI
  split_ifs <;> decide

lemma callID_inj (h : callID m = callID n) : m = n :=
  Nat.repr_inj.mp (String.append_right_inj _ |>.mp h)

end scan

section round
variable {J : Type} (toJSONString : J → String) (r : Round J)

def Round.responses : List (GeminiFunctionResponse J) := r.replyParts.filterMap GeminiPart.response?

def replyMessage (response : GeminiFunctionResponse J) : Message :=
  { role := "tool", content := .str (toJSONString response.response), toolCallId := callID 0 }

lemma Round.responses_eq_nil_iff : r.responses = [] ↔ r.calls = [] := by
  have hnam := congrArg length r.inOrder
  have hreplies : (r.replyParts.filterMap fun part => part.response?.map (·.name)) = r.responses.map (·.name) := by
    rw [Round.responses,map_filterMap]
  have hcalls : (r.callParts.filterMap fun part => part.call?.map (·.functionName)) = r.calls.map (·.functionName) := by
    rw [Round.calls,map_filterMap]
  rw [hreplies,hcalls,length_map,length_map] at hnam
  rw [← length_eq_zero_iff,← length_eq_zero_iff,hnam]

lemma convertContent_calling : convertContent toJSONString ⟨"model",r.callParts⟩ =
    turnMessage "assistant" (r.callParts.foldl (scanPart toJSONString) {}) := by
  have hmes := scan_calling toJSONString r.callParts r.calling {}
  simp [convertContent,hmes,convertGeminiRoleToOpenAI]

theorem convertContent_replying : convertContent toJSONString ⟨r.replyRole,r.replyParts⟩ =
    r.responses.map (replyMessage toJSONString)++turnMessage (convertGeminiRoleToOpenAI r.replyRole)
      (r.replyParts.foldl (scanPart toJSONString) {}) := by
  have hstart : ({} : Turn).toolCalls = [] := rfl
  have hmes := (scan_replying toJSONString r.replyParts r.replying hstart).2
  simp only [convertContent,hmes]
  rfl

lemma mem_round (h : m ∈ r.contents.flatMap (convertContent toJSONString)) :
    Numbered m.toolCalls ∧ (m.role = "tool" → r.calls ≠ []) := by
  have hempty : Numbered [] := by simp [Numbered]
  have hscan (parts : List (GeminiPart J)) : Numbered (parts.foldl (scanPart toJSONString) {}).toolCalls :=
    scan_numbered parts hempty
  simp only [Round.contents,flatMap_cons,flatMap_nil,append_nil,convertContent_calling,
    convertContent_replying,mem_append] at h
  rcases h with h | h | h
  · obtain ⟨hrole,hcalls⟩ := mem_turnMessage h
    refine ⟨?_,fun htool => absurd (hrole.symm.trans htool) (by decide)⟩
    rcases hcalls with hcalls | hcalls <;> rw [hcalls]
    · exact hempty
    · exact hscan _
  · obtain ⟨response,hres,rfl⟩ := mem_map.mp h
    refine ⟨hempty,fun _ hnone => ?_⟩
    rw [(r.responses_eq_nil_iff).mpr hnone] at hres
    cases hres
  · obtain ⟨hrole,hcalls⟩ := mem_turnMessage h
    refine ⟨?_,fun htool => absurd (hrole.symm.trans htool) convertGeminiRoleToOpenAI_ne_tool⟩
    rcases hcalls with hcalls | hcalls <;> rw [hcalls]
    · exact hempty
    · exact hscan _

lemma exists_reply (h : r.calls ≠ []) :
    ∃ m ∈ r.contents.flatMap (convertContent toJSONString), m.role = "tool" ∧ m.toolCallId = callID 0 := by
  obtain ⟨response,hres⟩ := exists_mem_of_ne_nil _ (mt r.responses_eq_nil_iff.mp h)
  refine ⟨replyMessage toJSONString response,?_,rfl,rfl⟩
  simp only [Round.contents,flatMap_cons,flatMap_nil,append_nil,convertContent_replying,mem_append]
  exact .inr (.inl (mem_map_of_mem hres))

end round

lemma not_linked_of_zero (hnum : ∀ m ∈ messages, Numbered m.toolCalls)
    (hm : m ∈ messages) (hrole : m.role = "tool") (hid : m.toolCallId = callID 0) : ¬ Linked messages := by
  intro hlinked
  obtain ⟨n,hn⟩ := getElem?_of_mem hm
  obtain ⟨hcount,_⟩ := hlinked n m hn hrole
  have hpos : 0 < (callsBefore messages n).countP (·.id = m.toolCallId) := by omega
  obtain ⟨call,hcall,hsame⟩ := countP_pos_iff.mp hpos
  obtain ⟨m',hm',hmem⟩ := mem_flatMap.mp hcall
  have hnumber : Numbered m'.toolCalls := hnum m' (mem_of_mem_take hm')
  split at hmem
  · obtain ⟨k,hk⟩ := hnumber call hmem
    have hzero := callID_inj (hk.symm.trans ((of_decide_eq_true hsame).trans hid))
    omega
  · cases hmem

section request
variable {J : Type} (toJSONString : J → String)

def conversation (request : GeminiChatRequest J) (rounds : List (Round J)) : GeminiChatRequest J :=
  { request with contents := rounds.flatMap Round.contents }

lemma messages_conversation :
    (geminiToOpenAIRequest toJSONString upstreamModelName isStream (conversation request rounds)).messages =
      systemMessages request++rounds.flatMap fun r => r.contents.flatMap (convertContent toJSONString) := by
  simp [geminiToOpenAIRequest,conversation,systemMessages,flatMap_assoc]

/-- Tool results stay linked to their calls exactly when there are none. -/
theorem geminiToOpenAIRequest_linked_iff (upstreamModelName : String) (isStream : Bool) (request : GeminiChatRequest J)
    (rounds : List (Round J)) :
    Linked (geminiToOpenAIRequest toJSONString upstreamModelName isStream (conversation request rounds)).messages ↔
      ∀ r ∈ rounds, r.calls = [] := by
  rw [messages_conversation]
  have hsystem : ∀ m ∈ systemMessages request, m.role = "system" ∧ m.toolCalls = [] := by
    intro m hm
    unfold systemMessages at hm
    split at hm
    · rw [mem_singleton.mp hm]
      exact ⟨rfl,rfl⟩
    · cases hm
  constructor
  · intro hlinked r hr
    by_contra hcalls
    obtain ⟨m,hm,hrole,hid⟩ := exists_reply toJSONString r hcalls
    refine not_linked_of_zero ?_ (mem_append_right _ (mem_flatMap.mpr ⟨r,hr,hm⟩)) hrole hid hlinked
    intro m' hm'
    rcases mem_append.mp hm' with hm' | hm'
    · rw [(hsystem m' hm').2]
      simp [Numbered]
    · obtain ⟨r',_,hmem⟩ := mem_flatMap.mp hm'
      exact (mem_round toJSONString r' hmem).1
  · intro hnone n m hn hrole
    exfalso
    rcases mem_append.mp (mem_of_getElem? hn) with hm | hm
    · have hsys := (hsystem m hm).1
      rw [hrole] at hsys
      exact absurd hsys (by decide)
    · obtain ⟨r,hr,hmem⟩ := mem_flatMap.mp hm
      exact (mem_round toJSONString r hmem).2 hrole (hnone r hr)

end request

def weatherRound : Round String where
  callParts := [{ functionCall := some ⟨"weather","Oslo"⟩ }]
  replyRole := "user"
  replyParts := [{ functionResponse := some ⟨"weather","rain"⟩ }]
  calling := by simp [GeminiPart.response?]
  replying := by simp [GeminiPart.call?]
  inOrder := rfl

theorem weatherRound_unlinked :
    let messages := (geminiToOpenAIRequest id "m" false (conversation ⟨[],{},[],none⟩ [weatherRound])).messages
    messages = [{ role := "assistant", toolCalls := [⟨"call_1","weather","Oslo"⟩] },
      { role := "tool", content := .str "rain", toolCallId := "call_0" }] ∧ ¬ Linked messages := by
  refine ⟨by decide,fun hlinked => ?_⟩
  have hcount := (hlinked 1 { role := "tool", content := .str "rain", toolCallId := "call_0" } (by decide) rfl).1
  revert hcount
  decide

end LurusHub.GeminiRequest
