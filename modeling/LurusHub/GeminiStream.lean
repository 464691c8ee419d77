import LurusHub.StreamChunk

/-! Re-framing of an OpenAI-wire stream for a Gemini-wire client. All chunks but the last go through
`handleGeminiFormat`, which holds a bare finish chunk back until the usage comes; the last one is
converted on its own. -/
namespace LurusHub.GeminiStream
open Pricing StreamChunk List

inductive GeminiPart
  | text (text : String)
  | functionCall (functionName arguments : String)
  deriving DecidableEq

structure GeminiChatCandidate where
  index : ℤ := 0
  finishReason : Option String := none
  parts : List GeminiPart := []
  deriving DecidableEq

structure GeminiChatResponse where
  candidates : List GeminiChatCandidate
  usage : Option Usage
  deriving DecidableEq

def geminiFinishReason (openAIFinishReason : String) : String :=
  if openAIFinishReason = "length" then "MAX_TOKENS"
  else if openAIFinishReason = "content_filter" then "SAFETY"
  else "STOP"

def hasContent (delta : ChoiceDelta) : Bool := delta.getContentString ≠ "" || delta.toolCalls ≠ []

/-- The text is only looked at where the field of the tool calls is missing. -/
def contentParts (delta : ChoiceDelta) : List GeminiPart :=
  match delta.sentToolCalls with
  | some toolCalls => toolCalls.map fun c => .functionCall c.name c.arguments
  | none => if delta.getContentString ≠ "" then [.text delta.getContentString] else []

def candidate (choice : Choice) : GeminiChatCandidate where
  index := choice.index
  finishReason := choice.finishReason.map geminiFinishReason
  parts := contentParts choice.delta

def lastFinishReason (choices : List Choice) (streamFinishReason : String) : String :=
  choices.foldl (fun last choice => choice.finishReason.getD last) streamFinishReason

/-- The only state is the finish reason seen last, an empty one included. -/
def streamResponseOpenAI2Gemini (chunk : ChatCompletionsStreamResponse) (streamFinishReason : String) :
    Option GeminiChatResponse × String :=
  let seen := lastFinishReason chunk.choices streamFinishReason
  if !chunk.choices.any (fun choice => hasContent choice.delta) &&
      !chunk.choices.any (fun choice => choice.finishReason.isSome) && chunk.usage.isNone then (none,seen)
  else
    let closing : List GeminiChatCandidate :=
      if chunk.choices = [] && chunk.usage.isSome then
        [{ finishReason := if seen ≠ "" then some (geminiFinishReason seen) else none }]
      else []
    (some ⟨chunk.choices.map candidate++closing,chunk.usage⟩,seen)

def contentlessFinish (chunk : ChatCompletionsStreamResponse) : Option String :=
  if chunk.choices.any fun choice => hasContent choice.delta then none
  else (chunk.choices.filterMap Choice.doneReason).getLast?

def handleGeminiFormat (chunk : ChatCompletionsStreamResponse) (streamFinishReason : String) :
    Option GeminiChatResponse × String :=
  match contentlessFinish chunk,chunk.usage with
  | some finish,none => (none,finish)
  | _,_ => streamResponseOpenAI2Gemini chunk streamFinishReason

/-- The billed usage is attached unless all of its counts are 0 or less. -/
def geminiLastChunkFrame (chunk : ChatCompletionsStreamResponse) (usage : Option Usage) (streamFinishReason : String) :
    Option GeminiChatResponse :=
  let billed := usage.filter fun u => 0 < u.promptTokens || 0 < u.completionTokens || 0 < u.totalTokens
  (streamResponseOpenAI2Gemini { chunk with usage := billed.or chunk.usage } streamFinishReason).1

def frames (usage : Option Usage) : String → List ChatCompletionsStreamResponse → List GeminiChatResponse
  | _,[] => []
  | streamFinishReason,[last] => (geminiLastChunkFrame last usage streamFinishReason).toList
  | streamFinishReason,chunk::chunks =>
    let (frame,streamFinishReason') := handleGeminiFormat chunk streamFinishReason
    frame.toList++frames usage streamFinishReason' chunks

lemma frames_cons (chunks : List ChatCompletionsStreamResponse) :
    frames usage streamFinishReason (chunk::second::chunks) =
      (handleGeminiFormat chunk streamFinishReason).1.toList++
        frames usage (handleGeminiFormat chunk streamFinishReason).2 (second::chunks) := rfl

/-! Frames that finish the answer. -/

def GeminiChatResponse.finishes (r : GeminiChatResponse) : Bool := r.candidates.any fun c => c.finishReason.isSome

/-- One frame finishes the answer, and it is the last one. -/
def OneFinish (frames : List GeminiChatResponse) : Prop :=
  frames.countP (·.finishes) = 1 ∧ frames.getLast?.any (·.finishes)
  deriving Decidable

lemma convert_single (h : chunk.choices = [choice]) (streamFinishReason : String) :
    (streamResponseOpenAI2Gemini chunk streamFinishReason).1.any (·.finishes) = choice.finishReason.isSome ∧
      (streamResponseOpenAI2Gemini chunk streamFinishReason).2 = choice.finishReason.getD streamFinishReason := by
  simp only [streamResponseOpenAI2Gemini,h,any_cons,any_nil,Bool.or_false,lastFinishReason]
  split
  · next hnoth =>
    simp only [Bool.and_eq_true,Bool.not_eq_true'] at hnoth
    simp [hnoth.1.2]
  · simp [GeminiChatResponse.finishes,candidate]

lemma convert_usageOnly (h : chunk.choices = []) (hu : chunk.usage.isSome)
    (hs : streamFinishReason ≠ "") :
    (streamResponseOpenAI2Gemini chunk streamFinishReason).1.any (·.finishes) := by
  obtain ⟨usage,hu⟩ := Option.isSome_iff_exists.mp hu
  simp [streamResponseOpenAI2Gemini,h,hu,lastFinishReason,hs,GeminiChatResponse.finishes]

lemma contentlessFinish_single (h : chunk.choices = [choice]) :
    contentlessFinish chunk = if hasContent choice.delta then none else choice.doneReason := by
  unfold contentlessFinish
  cases hd : choice.doneReason <;> simp [h,hd]

lemma handle_held (h : contentlessFinish chunk = some finish)
    (hu : chunk.usage = none) (streamFinishReason : String) :
    handleGeminiFormat chunk streamFinishReason = (none,finish) := by
  simp [handleGeminiFormat,h,hu]

lemma handle_converted (h : contentlessFinish chunk = none ∨ chunk.usage.isSome)
    (streamFinishReason : String) :
    handleGeminiFormat chunk streamFinishReason = streamResponseOpenAI2Gemini chunk streamFinishReason := by
  unfold handleGeminiFormat
  split
  · next finish hfinish hu => simp [hfinish,hu] at h
  · rfl

/-! The chunks of an answer: some without a finish reason, one with it, and perhaps one with the usage. -/

def Early (chunk : ChatCompletionsStreamResponse) : Prop := ∃ choice, chunk.choices = [choice] ∧ choice.doneReason = none

def Finish (chunk : ChatCompletionsStreamResponse) : Prop :=
  ∃ choice, chunk.choices = [choice] ∧ choice.doneReason.isSome

def UsageOnly (chunk : ChatCompletionsStreamResponse) : Prop := chunk.choices = [] ∧ chunk.usage.isSome

def sendsFinish (chunk : ChatCompletionsStreamResponse) : Bool := chunk.choices.any fun c => c.finishReason.isSome

lemma countP_toList {α : Type*} (p : α → Bool) (o : Option α) : o.toList.countP p = if o.any p then 1 else 0 := by
  cases o with
  | none => rfl
  | some a => simp [countP_cons]

theorem frames_early (h : ∀ c ∈ early, Early c) (hrest : rest ≠ []) (streamFinishReason : String) :
    ∃ before streamFinishReason', frames usage streamFinishReason (early++rest) =
        before++frames usage streamFinishReason' rest ∧
      before.countP (·.finishes) = early.countP sendsFinish := by
  induction early generalizing streamFinishReason with
  | nil => exact ⟨[],streamFinishReason,rfl,rfl⟩
  | cons c cs ih =>
    obtain ⟨choice,hchoices,hdone⟩ := h c mem_cons_self
    have hbare : contentlessFinish c = none := by simp [contentlessFinish_single hchoices,hdone]
    have hcon := handle_converted (.inl hbare) streamFinishReason
    obtain ⟨hfin,_⟩ := convert_single hchoices streamFinishReason
    rcases hc : streamResponseOpenAI2Gemini c streamFinishReason with ⟨frame,next⟩
    rw [hc] at hcon hfin
    obtain ⟨before,last,hfra,hcount⟩ := ih (fun d hd => h d (mem_cons_of_mem _ hd)) next
    refine ⟨frame.toList++before,last,?_,?_⟩
    · cases hall : cs++rest with
      | nil => exact absurd (append_eq_nil_iff.mp hall).2 hrest
      | cons d ds =>
        rw [hall] at hfra
        rw [cons_append,hall,frames_cons,hcon,hfra,append_assoc]
    · rw [countP_append,hcount,countP_toList,hfin,countP_cons,Nat.add_comm]
      simp [sendsFinish,hchoices]

lemma lastFrame_finishes (usage : Option Usage) (streamFinishReason : String)
    (h : Finish chunk ∨ UsageOnly chunk ∧ streamFinishReason ≠ "") :
    ∃ frame, frames usage streamFinishReason [chunk] = [frame] ∧ frame.finishes := by
  have hany : (geminiLastChunkFrame chunk usage streamFinishReason).any (·.finishes) := by
    simp only [geminiLastChunkFrame]
    rcases h with ⟨choice,hchoices,hdone⟩ | ⟨⟨hchoices,hu⟩,hs⟩
    · obtain ⟨reason,hr⟩ := Option.isSome_iff_exists.mp hdone
      have hreason : choice.finishReason = some reason := (Option.filter_eq_some_iff.mp hr).1
      have hcon u := (convert_single (show (⟨chunk.id,chunk.model,chunk.choices,u⟩ :
        ChatCompletionsStreamResponse).choices = [choice] from hchoices) streamFinishReason).1
      rw [hcon,hreason]
      rfl
    · refine convert_usageOnly ?_ ?_ hs
      · exact hchoices
      · simp [hu]
  cases hframe : geminiLastChunkFrame chunk usage streamFinishReason with
  | none => simp [hframe] at hany
  | some frame => exact ⟨frame,by simp [frames,hframe],by simpa [hframe] using hany⟩

theorem frames_finish_usage (hfinish : Finish finish) (hlast : UsageOnly last) :
    ∃ front frame, frames usage seen [finish,last] = front++[frame] ∧ frame.finishes ∧
      front.countP (·.finishes) = if hasContent finish.delta = false ∧ finish.usage = none then 0 else 1 := by
  obtain ⟨choice,hchoices,hdone⟩ := hfinish
  obtain ⟨reason,hr⟩ := Option.isSome_iff_exists.mp hdone
  have hreason : choice.finishReason = some reason := (Option.filter_eq_some_iff.mp hr).1
  have hdelta := delta_of_choices hchoices
  have hheld := contentlessFinish_single hchoices
  obtain ⟨frame,hframe,hfin⟩ := lastFrame_finishes usage reason (.inr ⟨hlast,Choice.doneReason_ne_empty hr⟩)
  split
  · next hback =>
    rw [hdelta] at hback
    have hhan := handle_held (by rw [hheld,hback.1]; simpa using hr) hback.2 seen
    refine ⟨[],frame,?_,hfin,rfl⟩
    rw [frames_cons,hhan,hframe]
    rfl
  · next hback =>
    have hopen : contentlessFinish finish = none ∨ finish.usage.isSome := by
      rw [hheld,← hdelta]
      cases hc : hasContent finish.delta with
      | true => exact .inl rfl
      | false => exact .inr (Option.isSome_iff_ne_none.mpr fun hu => hback ⟨hc,hu⟩)
    obtain ⟨hsent,hseen⟩ := convert_single hchoices seen
    refine ⟨(handleGeminiFormat finish seen).1.toList,frame,?_,hfin,?_⟩
    · rw [frames_cons,handle_converted hopen,hseen,hreason,Option.getD_some,hframe]
    · rw [countP_toList,handle_converted hopen,hsent,hreason]
      rfl

/-- An early empty reason, or a finish not held back for the usage, finishes twice. -/
theorem one_finishing_frame_iff (usage : Option Usage) (streamFinishReason : String)
    {early : List ChatCompletionsStreamResponse} {finish : ChatCompletionsStreamResponse}
    {usageOnly : Option ChatCompletionsStreamResponse} (hearly : ∀ c ∈ early, Early c) (hfinish : Finish finish)
    (husage : ∀ c ∈ usageOnly, UsageOnly c) :
    OneFinish (frames usage streamFinishReason (early++finish::usageOnly.toList)) ↔
      (∀ c ∈ early, ∀ choice ∈ c.choices, choice.finishReason = none) ∧
        (usageOnly.isSome → hasContent finish.delta = false ∧ finish.usage = none) := by
  obtain ⟨before,seen,hfra,hcount⟩ :=
    frames_early hearly (cons_ne_nil finish usageOnly.toList) streamFinishReason
  have hnone : (∀ c ∈ early, ∀ choice ∈ c.choices, choice.finishReason = none) ↔
      before.countP (·.finishes) = 0 := by
    simp [hcount,sendsFinish]
  rw [hfra,hnone]
  cases usageOnly with
  | none =>
    obtain ⟨frame,hlast,hfin⟩ := lastFrame_finishes usage seen (.inl hfinish)
    simp [OneFinish,hlast,hfin]
  | some last =>
    obtain ⟨front,frame,hlast,hfin,hfro⟩ := frames_finish_usage hfinish (husage last rfl)
    rw [Option.toList_some,hlast]
    by_cases hback : hasContent finish.delta = false ∧ finish.usage = none
    · simp [OneFinish,hfin,hfro,hback]
    · simp [OneFinish,hfin,hfro,hback]

theorem answer_finished_twice :
    let chunk (content : String) (finishReason : Option String) : ChatCompletionsStreamResponse :=
      ⟨"c","m",[{ delta := { content := some content }, finishReason }],none⟩
    let usage : Usage := { promptTokens := 1, completionTokens := 1, totalTokens := 2 }
    ¬OneFinish (frames none "" [chunk "hi" (some ""),chunk "" (some "stop")]) ∧
      ¬OneFinish (frames (some usage) "" [chunk "hi" (some "stop"),⟨"c","m",[],some usage⟩]) := by
  decide

theorem held_finish_sent_once :
    let chunk (content : String) (finishReason : Option String) : ChatCompletionsStreamResponse :=
      ⟨"c","m",[{ delta := { content := some content }, finishReason }],none⟩
    let usage : Usage := { promptTokens := 1, completionTokens := 1, totalTokens := 2 }
    OneFinish (frames (some usage) "" ([chunk "hi" none]++chunk "" (some "stop")::
      (some (⟨"c","m",[],some usage⟩ : ChatCompletionsStreamResponse)).toList)) := by
  intro chunk usage
  refine (one_finishing_frame_iff (some usage) "" ?_ ?_ ?_).mpr (by decide)
  · intro c hc
    rw [mem_singleton.mp hc]
    exact ⟨_,rfl,rfl⟩
  · exact ⟨_,rfl,rfl⟩
  · intro c hc
    rw [← Option.some.inj hc]
    exact ⟨rfl,rfl⟩

end LurusHub.GeminiStream
