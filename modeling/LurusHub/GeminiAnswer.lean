import LurusHub.GeminiUpstream
import Mathlib.Algebra.GroupWithZero.Nat

/-! Answers of a Gemini upstream as one OpenAI-wire response. The mark of a tool call outlives its
candidate, and of the thoughts the last one is kept; in the stream one thought turns the whole text
of its chunk into reasoning. -/
namespace LurusHub.GeminiUpstream
open List

structure OpenAITextResponseChoice where
  index : ℤ
  (content reasoningContent : String)
  toolCalls : List ToolCallResponse
  finishReason : String

def GeminiPart.answerText? (part : GeminiPart) : Option String :=
  match part.inlineData with
  | some inline =>
    if inline.mimeType.startsWith "image" then some ("![image](data:"++inline.mimeType++";base64,"++inline.data++")")
    else some ("[media](data:"++inline.mimeType++";base64,"++inline.data++")")
  | none =>
    if part.functionCall.isSome ∨ part.thought then none
    else match part.executableCode,part.codeExecutionResult with
      | some (language,code),_ => some ("```"++language++"\n"++code++"\n```")
      | none,some output => some ("```output\n"++output++"\n```")
      | none,none => if part.text ≠ "\n" then some part.text else none

def answerChoice (isToolCall : Bool) (candidate : GeminiChatCandidate) : OpenAITextResponseChoice where
  index := candidate.index
  content := "\n".intercalate (candidate.parts.filterMap GeminiPart.answerText?)
  reasoningContent := candidate.parts.foldl (fun reasoning part => if part.isThought then part.text else reasoning) ""
  toolCalls := candidate.calls.map getResponseToolCall
  finishReason :=
    if isToolCall then "tool_calls"
    else match candidate.finishReason with
      | none => if candidate.calls ≠ [] then "tool_calls" else "stop"
      | some reason => if reason = "STOP" then "stop" else if reason = "MAX_TOKENS" then "length" else "content_filter"

/-- `isToolCall` is what the candidates so far have left. -/
def answerChoices (isToolCall : Bool) : List GeminiChatCandidate → List OpenAITextResponseChoice
  | [] => []
  | candidate::candidates =>
    let isToolCall := isToolCall || !candidate.calls.isEmpty
    answerChoice isToolCall candidate::answerChoices isToolCall candidates

def responseGeminiChat2OpenAI (response : GeminiChatResponse) : List OpenAITextResponseChoice := answerChoices false response

/-! Several candidates. -/

lemma answerChoice_mark_iff (isToolCall : Bool) :
    answerChoice (isToolCall || !candidate.calls.isEmpty) candidate = answerChoice (!candidate.calls.isEmpty) candidate ↔
      (isToolCall → candidate.calls ≠ []) := by
  by_cases hcalls : candidate.calls = []
  · cases isToolCall with
    | false => simp [hcalls]
    | true =>
      have hreason : (answerChoice false candidate).finishReason ≠ "tool_calls" := by
        simp only [answerChoice,hcalls,Bool.false_eq_true,if_false]
        split
        · decide
        · split_ifs <;> decide
      simp only [hcalls,ne_eq,not_true_eq_false,imp_false,iff_false]
      exact fun heq => hreason (congrArg OpenAITextResponseChoice.finishReason heq).symm
  · have hsome : (!candidate.calls.isEmpty) := by simpa using hcalls
    simp [hcalls,hsome]

lemma answerChoices_iff (isToolCall : Bool) :
    answerChoices isToolCall candidates = candidates.flatMap (fun c => responseGeminiChat2OpenAI [c]) ↔
      (isToolCall → ∀ c ∈ candidates, c.calls ≠ []) ∧ candidates.Pairwise fun a b => a.calls ≠ [] → b.calls ≠ [] := by
  induction candidates generalizing isToolCall with
  | nil => simp [answerChoices]
  | cons c candidates ih =>
    have halo : responseGeminiChat2OpenAI [c] = [answerChoice (!c.calls.isEmpty) c] := rfl
    rw [answerChoices,flatMap_cons,halo,singleton_append,cons_eq_cons,answerChoice_mark_iff,ih]
    cases isToolCall <;> by_cases hcalls : c.calls = [] <;> simp [hcalls]

theorem candidates_independent_iff (response : GeminiChatResponse) :
    responseGeminiChat2OpenAI response = response.flatMap (fun c => responseGeminiChat2OpenAI [c]) ↔
      response.Pairwise fun a b => a.calls ≠ [] → b.calls ≠ [] := by
  simpa [responseGeminiChat2OpenAI] using answerChoices_iff false

theorem call_marks_next_candidate :
    let call : GeminiChatCandidate := { parts := [{ functionCall := some ⟨"f",.null⟩ }], finishReason := some "STOP" }
    let text : GeminiChatCandidate := { index := 1, parts := [{ text := "hi" }], finishReason := some "STOP" }
    (responseGeminiChat2OpenAI [call,text]).map (·.finishReason) = ["tool_calls","tool_calls"] ∧
      (responseGeminiChat2OpenAI [text]).map (·.finishReason) = ["stop"] := by
  decide

/-! Thoughts. -/

structure GeminiPart.IsText (part : GeminiPart) : Prop where
  inlineData : part.inlineData = none
  functionCall : part.functionCall = none
  executableCode : part.executableCode = none
  codeExecutionResult : part.codeExecutionResult = none
  text : part.text ≠ "\n"

def answers (parts : List GeminiPart) : List String := (parts.filter fun p => !p.thought).map (·.text)

def thoughts (parts : List GeminiPart) : List String := (parts.filter fun p => p.thought).map (·.text)

/-- Answers and thoughts go their own ways, line by line, in each delta of the stream and in the answer as a whole. -/
def Separate (chunks : List GeminiChatCandidate) (whole : GeminiChatCandidate) : Prop :=
  (∀ c ∈ chunks, ∀ choice ∈ (streamResponseGeminiChat2OpenAI [c]).1,
    choice.delta.content.getD "" = "\n".intercalate (answers c.parts) ∧
      choice.delta.reasoningContent.getD "" = "\n".intercalate (thoughts c.parts)) ∧
  ∀ choice ∈ responseGeminiChat2OpenAI [whole], choice.content = "\n".intercalate (answers whole.parts) ∧
    choice.reasoningContent = "\n".intercalate (thoughts whole.parts)

lemma length_lines (h : lines ≠ []) :
    ("\n".intercalate lines).length+1 = (lines.map fun line => line.length+1).sum := by
  induction lines with
  | nil => exact absurd rfl h
  | cons line lines ih =>
    cases lines with
    | nil => simp
    | cons line' lines =>
      have hrest := ih (by simp)
      rw [String.intercalate_cons_cons,String.length_append,String.length_append,map_cons,sum_cons]
      have hbre : "\n".length = 1 := by decide
      omega

lemma length_sublist {lines lines' : List String} (h : lines'.Sublist lines) :
    (lines'.map fun line => line.length+1).sum+lines.length ≤ (lines.map fun line => line.length+1).sum+lines'.length := by
  induction h with
  | slnil => exact Nat.le_refl _
  | cons _ _ ih | cons_cons _ _ ih =>
    simp only [map_cons,sum_cons,length_cons]
    omega

lemma lines_of_sublist (h : lines'.Sublist lines) (hne : lines' ≠ [])
    (heq : "\n".intercalate lines' = "\n".intercalate lines) : lines' = lines := by
  have hne' : lines ≠ [] := fun hnil => hne (sublist_nil.mp (hnil ▸ h))
  have hleng := length_lines hne
  rw [heq,length_lines hne'] at hleng
  have hsub := length_sublist h
  exact h.eq_of_length_le (by omega)

section
variable {parts : List GeminiPart}

lemma texts_stream (h : ∀ p ∈ parts, p.IsText) : parts.filterMap GeminiPart.text? = parts.map (·.text) := by
  rw [← filterMap_eq_map]
  refine filterMap_congr fun p hp => ?_
  obtain ⟨hinl,hcall,hcode,hres,htext⟩ := h p hp
  simp [GeminiPart.text?,hinl,hcall,hcode,hres,htext]

lemma texts_whole (h : ∀ p ∈ parts, p.IsText) : parts.filterMap GeminiPart.answerText? = answers parts := by
  rw [answers,← filterMap_eq_map,filterMap_filter]
  refine filterMap_congr fun p hp => ?_
  obtain ⟨hinl,hcall,hcode,hres,htext⟩ := h p hp
  cases hthought : p.thought <;> simp [GeminiPart.answerText?,hinl,hcall,hcode,hres,htext,hthought]

lemma isThought_of_text {p : GeminiPart} (h : p.IsText) : p.isThought = p.thought := by
  simp [GeminiPart.isThought,h.inlineData,h.functionCall]

lemma any_isThought (h : ∀ p ∈ parts, p.IsText) : parts.any GeminiPart.isThought ↔ thoughts parts ≠ [] := by
  rw [thoughts,any_eq_true,ne_eq,map_eq_nil_iff,filter_eq_nil_iff]
  push Not
  exact exists_congr fun p => and_congr_right fun hp => by rw [isThought_of_text (h p hp)]

lemma last_thought (h : ∀ p ∈ parts, p.IsText) :
    parts.foldl (fun reasoning part => if part.isThought then part.text else reasoning) reasoning =
      (thoughts parts).getLast?.getD reasoning := by
  induction parts generalizing reasoning with
  | nil => rfl
  | cons p parts ih =>
    obtain ⟨hp,hrest⟩ := forall_mem_cons.mp h
    rw [foldl_cons,ih hrest,isThought_of_text hp]
    cases hthought : p.thought <;> simp [thoughts,hthought,getLast?_cons]

lemma answers_nil_iff : answers parts = [] ↔ thoughts parts = parts.map (·.text) := by
  rw [answers,thoughts]
  constructor
  · intro hnone
    rw [filter_eq_self.mpr]
    simpa using hnone
  · intro hall
    have hleng := congrArg length hall
    simpa using hleng

end

lemma separate_chunk_iff (h : ∀ p ∈ candidate.parts, p.IsText) :
    ((choiceOf candidate).delta.content.getD "" = "\n".intercalate (answers candidate.parts) ∧
      (choiceOf candidate).delta.reasoningContent.getD "" = "\n".intercalate (thoughts candidate.parts)) ↔
      answers candidate.parts = [] ∨ thoughts candidate.parts = [] := by
  simp only [choiceOf,texts_stream h]
  by_cases hnone : thoughts candidate.parts = []
  · have hquiet : ¬candidate.parts.any GeminiPart.isThought := fun hany => (any_isThought h).mp hany hnone
    have hall : answers candidate.parts = candidate.parts.map (·.text) := by
      rw [answers,filter_eq_self.mpr]
      simpa [thoughts] using hnone
    simp [hquiet,hnone,hall]
  · simp only [(any_isThought h).mpr hnone,hnone,or_false]
    constructor
    · rintro ⟨_,hrea⟩
      exact answers_nil_iff.mpr (lines_of_sublist (filter_sublist.map _) hnone hrea.symm)
    · intro hempty
      rw [hempty,answers_nil_iff.mp hempty]
      exact ⟨rfl,rfl⟩

lemma separate_whole_iff (h : ∀ p ∈ candidate.parts, p.IsText) (isToolCall : Bool) :
    ((answerChoice isToolCall candidate).content = "\n".intercalate (answers candidate.parts) ∧
      (answerChoice isToolCall candidate).reasoningContent = "\n".intercalate (thoughts candidate.parts)) ↔
      (thoughts candidate.parts).length ≤ 1 := by
  simp only [answerChoice,texts_whole h,true_and,last_thought h]
  generalize thoughts candidate.parts = lines
  rcases eq_nil_or_concat lines with rfl | ⟨before,last,rfl⟩
  · simp
  · rw [concat_eq_append,getLast?_concat]
    constructor
    · intro heq
      have hone : [last] = before++[last] :=
        lines_of_sublist (sublist_append_right _ _) (by simp) (String.intercalate_singleton.trans heq)
      exact hone ▸ Nat.le_refl 1
    · intro hleng
      obtain rfl : before = [] := length_eq_zero_iff.mp (by simpa using hleng)
      simp

/-- Answers and thoughts stay apart exactly if no chunk has both, with one thought at most. -/
theorem separate_iff (chunks : List GeminiChatCandidate) (whole : GeminiChatCandidate)
    (htext : ∀ c ∈ chunks, ∀ p ∈ c.parts, p.IsText) (hwhole : whole.parts = chunks.flatMap (·.parts)) :
    Separate chunks whole ↔
      (∀ c ∈ chunks, answers c.parts = [] ∨ thoughts c.parts = []) ∧ (thoughts (chunks.flatMap (·.parts))).length ≤ 1 := by
  have hparts : ∀ p ∈ whole.parts, p.IsText := by
    intro p hp
    rw [hwhole] at hp
    obtain ⟨c,hc,hp⟩ := mem_flatMap.mp hp
    exact htext c hc p hp
  rw [← hwhole]
  refine and_congr (forall₂_congr fun c hc => ?_) ?_
  · rw [← separate_chunk_iff (htext c hc)]
    simp [streamResponseGeminiChat2OpenAI]
  · rw [← separate_whole_iff hparts (!whole.calls.isEmpty)]
    simp [responseGeminiChat2OpenAI,answerChoices]

def textOf (thought : Bool) (text : String) : GeminiPart := { text, thought }

lemma textOf_isText (h : text ≠ "\n") : (textOf thought text).IsText := ⟨rfl,rfl,rfl,rfl,h⟩

theorem separate_in_turn : Separate [{ parts := [textOf true "hm"] },{ parts := [textOf false "hi"] }]
    { parts := [textOf true "hm",textOf false "hi"] } := by
  refine (separate_iff _ _ ?_ rfl).mpr (by decide)
  simp [textOf_isText]

theorem thoughts_mix :
    ¬Separate [{ parts := [textOf true "hm",textOf false "hi"] }] { parts := [textOf true "hm",textOf false "hi"] } ∧
      ¬Separate [{ parts := [textOf true "a"] },{ parts := [textOf true "b"] }]
      { parts := [textOf true "a",textOf true "b"] } := by
  simp only [Separate,not_and_or]
  exact ⟨.inl (by decide),.inr (by decide)⟩

end LurusHub.GeminiUpstream
