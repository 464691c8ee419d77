import LurusHub.GeminiUpstream

/-! The finish reason of a Gemini stream at an OpenAI-wire client. A chunk with tool calls finishes
in its own frame, unless it opens the stream; a chunk that stops adds a frame with the reason held,
which only the first chunk sets. -/
namespace LurusHub.GeminiUpstream
open List

def finishes (frames : List ChatCompletionsStreamResponse) : List String := frames.flatMap fun r => r.filterMap (·.finishReason)

def Silent (frame : ChatCompletionsStreamResponse) : Prop :=
  ∀ choice ∈ frame, choice.delta.content.getD "" = "" ∧ choice.delta.toolCalls = []

/-- One finish reason, after which nothing is said. -/
def FinishesWith (frames : List ChatCompletionsStreamResponse) (reason : String) : Prop :=
  ∃ before frame after, frames = before++frame::after ∧ finishes before = [] ∧ finishes [frame] = [reason] ∧
    finishes after = [] ∧ ∀ r ∈ after, Silent r

def expectedReason (chunks : List GeminiChatCandidate) (last : GeminiChatCandidate) : String :=
  if ∀ c ∈ chunks++[last], c.calls = [] then if last.finishReason = some "STOP" then "stop" else "length" else "tool_calls"

/-- No chunk between the first and the last has tool calls. A last chunk that stops has none, unless
it is the first; one that breaks off has some if any has, and is then not the first. -/
def CallsInPlace (chunks : List GeminiChatCandidate) (last : GeminiChatCandidate) : Prop :=
  (∀ c ∈ chunks.tail, c.calls = []) ∧
    if last.finishReason = some "STOP" then chunks = [] ∨ last.calls = []
    else (∀ c ∈ chunks++[last], c.calls = []) ∨ chunks ≠ [] ∧ last.calls ≠ []

lemma finishes_append : finishes (frames++frames') = finishes frames++finishes frames' := flatMap_append

lemma isToolCall_iff : isToolCall [choiceOf c] ↔ c.calls ≠ [] := by
  simp [isToolCall,choiceOf,toolCallsOf,length_pos_iff]

lemma handleChunk_frames (h : Handler) (c : GeminiChatCandidate) : ∃ header body,
    (handleChunk h [c]).2 = header++[body]++(if c.finishReason = some "STOP"
    then [[{ finishReason := some (handleChunk h [c]).1.finishReason }]] else []) ∧
    finishes header = [] ∧
    finishes [body] = if h.sendResponseCount = 0 ∧ c.calls ≠ [] then [] else (choiceOf c).finishReason.toList := by
  have hreason : ∀ r, (choiceOf c).finishReason = some r → r ≠ "" := by
    intro r hr
    simp only [choiceOf] at hr
    split_ifs at hr
    · cases hr; decide
    · split at hr
      · cases hr
      · split_ifs at hr <;> cases hr <;> decide
  by_cases hcount : h.sendResponseCount = 0
  · by_cases hcalls : c.calls = []
    · have hno : ¬isToolCall [choiceOf c] := fun hyes => isToolCall_iff.mp hyes hcalls
      refine ⟨[[{ delta := { content := some "" } }]],[choiceOf c],?_,rfl,?_⟩
      · simp [handleChunk,streamResponseGeminiChat2OpenAI,hcount,hno]
      · cases hr : (choiceOf c).finishReason <;> simp [finishes,hcalls,hr]
    · have hyes := isToolCall_iff.mpr hcalls
      refine ⟨[startResponse [choiceOf c]],clearFinish (clearToolCalls [choiceOf c]),?_,rfl,?_⟩
      · simp [handleChunk,streamResponseGeminiChat2OpenAI,hcount,hyes]
      · cases hr : (choiceOf c).finishReason with
        | none => simp [finishes,clearFinish,clearToolCalls,hr]
        | some r => simp [finishes,clearFinish,clearToolCalls,hcount,hcalls,hr,hreason r hr]
  · refine ⟨[],[choiceOf c],?_,rfl,?_⟩
    · simp [handleChunk,streamResponseGeminiChat2OpenAI,hcount]
    · cases hr : (choiceOf c).finishReason <;> simp [finishes,hcount,hr]

lemma handleChunk_sent (h : Handler) (c : GeminiChatCandidate) : (handleChunk h [c]).1.sendResponseCount ≠ 0 := by
  obtain ⟨header,body,hfra,_⟩ := handleChunk_frames h c
  have hleng := congrArg length hfra
  simp only [handleChunk] at hleng ⊢
  simp only [length_append,length_singleton] at hleng ⊢
  omega

lemma handleChunk_reason (h : Handler) :
    (handleChunk h [c]).1.finishReason = if h.sendResponseCount = 0 ∧ c.calls ≠ [] then "tool_calls" else h.finishReason := by
  simp [handleChunk,streamResponseGeminiChat2OpenAI,isToolCall_iff]

def lastReasons (h : Handler) (last : GeminiChatCandidate) : List String :=
  (if h.sendResponseCount = 0 ∧ last.calls ≠ [] then [] else (choiceOf last).finishReason.toList)++
    if last.finishReason = some "STOP" then [(handleChunk h [last]).1.finishReason] else []

lemma finishes_handleChunk (h : Handler) (c : GeminiChatCandidate) : finishes (handleChunk h [c]).2 = lastReasons h c := by
  obtain ⟨header,body,hfra,hheader,hbody⟩ := handleChunk_frames h c
  rw [hfra,finishes_append,finishes_append,hheader,hbody,lastReasons]
  by_cases hstop : c.finishReason = some "STOP"
  · rw [if_pos hstop,if_pos hstop]
    rfl
  · rw [if_neg hstop,if_neg hstop]
    rfl

lemma finishes_later (last : GeminiChatCandidate) (hnone : ∀ c ∈ chunks, c.finishReason = none)
    (hsent : h.sendResponseCount ≠ 0) :
    ∃ h', h'.sendResponseCount ≠ 0 ∧ h'.finishReason = h.finishReason ∧ ∃ before,
      handleChunks h ((chunks++[last]).map ([·])) = before++(handleChunk h' [last]).2 ∧
      finishes before = (chunks.filter fun c => !c.calls.isEmpty).map fun _ => "tool_calls" := by
  induction chunks generalizing h with
  | nil => exact ⟨h,hsent,rfl,[],by simp [handleChunks],rfl⟩
  | cons c chunks ih =>
    obtain ⟨hc,hrest⟩ := forall_mem_cons.mp hnone
    obtain ⟨h',hsent',hreason,before,hfra,hbefore⟩ := ih hrest (handleChunk_sent h c)
    refine ⟨h',hsent',?_,(handleChunk h [c]).2++before,?_,?_⟩
    · rw [hreason,handleChunk_reason,if_neg fun hzero => hsent hzero.1]
    · rw [cons_append,map_cons,handleChunks,hfra,append_assoc]
    · rw [finishes_append,hbefore,finishes_handleChunk]
      by_cases hcalls : c.calls = [] <;> simp [lastReasons,hsent,hc,hcalls,choiceOf]

lemma finishesWith_of_last (hbefore : finishes before = [])
    (hlast : lastReasons h last = [reason]) : FinishesWith (before++(handleChunk h [last]).2) reason := by
  obtain ⟨header,body,hfra,hheader,hbody⟩ := handleChunk_frames h last
  have hall := finishes_handleChunk h last
  rw [hlast,hfra] at hall
  rw [hfra]
  by_cases hstop : last.finishReason = some "STOP"
  · rw [if_pos hstop] at hall ⊢
    rw [finishes_append,finishes_append,hheader] at hall
    obtain ⟨hbody,hreason⟩ := append_inj' (hall.trans (nil_append _).symm) rfl
    refine ⟨before++(header++[body]),[{ finishReason := some (handleChunk h [last]).1.finishReason }],[],by simp,?_,hreason,rfl,by simp⟩
    rw [finishes_append,finishes_append,hbefore,hheader,hbody]
    rfl
  · rw [if_neg hstop,append_nil] at hall ⊢
    rw [finishes_append,hheader] at hall
    exact ⟨before++header,body,[],by simp,by rw [finishes_append,hbefore,hheader]; rfl,hall,rfl,by simp⟩

lemma FinishesWith.finishes (hf : FinishesWith frames reason) : finishes frames = [reason] := by
  obtain ⟨before,frame,after,rfl,hbefore,hframe,hafter,_⟩ := hf
  rw [show before++frame::after = before++([frame]++after) from rfl,finishes_append,finishes_append,hbefore,hframe,hafter]
  rfl

lemma finishesWith_iff (hlast : lastReasons h last ≠ []) :
    FinishesWith (before++(handleChunk h [last]).2) reason ↔ finishes before = [] ∧ lastReasons h last = [reason] := by
  refine ⟨fun hf => ?_,fun hboth => finishesWith_of_last hboth.1 hboth.2⟩
  have hall := hf.finishes
  rw [finishes_append,finishes_handleChunk] at hall
  rcases append_eq_singleton_iff.mp hall with hsplit | hsplit
  · exact hsplit
  · exact absurd hsplit.2 hlast

theorem stream_finish_iff (chunks : List GeminiChatCandidate) (last : GeminiChatCandidate)
    (hnone : ∀ c ∈ chunks, c.finishReason = none)
    (hlast : last.finishReason = some "STOP" ∨ last.finishReason = some "MAX_TOKENS") :
    FinishesWith (handleChunks {} ((chunks++[last]).map ([·]))) (expectedReason chunks last) ↔ CallsInPlace chunks last := by
  cases chunks with
  | nil =>
    have hfra : handleChunks {} (([]++[last]).map ([·])) = []++(handleChunk {} [last]).2 := by simp [handleChunks]
    rw [hfra]
    by_cases hcalls : last.calls = []
    · rcases hlast with hl | hl
      · rw [finishesWith_iff (by simp [lastReasons,hl])]
        simp [lastReasons,handleChunk_reason,hl,hcalls,choiceOf,expectedReason,CallsInPlace,finishes]
      · rw [finishesWith_iff (by simp [lastReasons,hl,hcalls,choiceOf])]
        simp [lastReasons,hl,hcalls,choiceOf,expectedReason,CallsInPlace,finishes]
    · rcases hlast with hl | hl
      · rw [finishesWith_iff (by simp [lastReasons,hl])]
        simp [lastReasons,handleChunk_reason,hl,hcalls,expectedReason,CallsInPlace,finishes]
      · refine iff_of_false (fun hf => ?_) (by simp [CallsInPlace,hl,hcalls])
        have hall := hf.finishes
        rw [finishes_append,finishes_handleChunk] at hall
        simp [lastReasons,hl,hcalls,finishes] at hall
  | cons first chunks =>
    obtain ⟨hfirst,hrest⟩ := forall_mem_cons.mp hnone
    obtain ⟨h',hsent,hreason,before,hfra,hbefore⟩ := finishes_later last hrest (handleChunk_sent {} first)
    rw [handleChunk_reason] at hreason
    have hopening : finishes (handleChunk {} [first]).2 = [] := by
      rw [finishes_handleChunk]
      by_cases hcalls : first.calls = [] <;> simp [lastReasons,hfirst,hcalls,choiceOf]
    rw [cons_append,map_cons,handleChunks,hfra,← append_assoc,finishesWith_iff,finishes_append,hopening,hbefore]
    · have hmid : ((chunks.filter fun c => !c.calls.isEmpty).map fun _ => "tool_calls") = [] ↔ ∀ c ∈ chunks, c.calls = [] := by
        simp
      rw [nil_append,hmid,CallsInPlace,tail_cons]
      refine and_congr_right fun hquiet => ?_
      have hall : (∀ c ∈ first::chunks++[last], c.calls = []) ↔ first.calls = [] ∧ last.calls = [] := by
        rw [forall_mem_append,forall_mem_cons,forall_mem_singleton]
        exact ⟨fun hall => ⟨hall.1.1,hall.2⟩,fun hboth => ⟨⟨hboth.1,hquiet⟩,hboth.2⟩⟩
      simp only [expectedReason,hall]
      rcases hlast with hl | hl <;> by_cases hc : first.calls = [] <;> by_cases hcalls : last.calls = [] <;>
        simp [lastReasons,handleChunk_reason,hsent,hreason,hl,hc,hcalls,choiceOf]
    · rcases hlast with hl | hl <;> by_cases hcalls : last.calls = [] <;> simp [lastReasons,hsent,hl,hcalls,choiceOf]

def said (text : String) (finishReason : Option String) : GeminiChatCandidate := { parts := [{ text }], finishReason }

def called (finishReason : Option String) : GeminiChatCandidate :=
  { parts := [{ functionCall := some ⟨"f",.null⟩ }], finishReason }

theorem finish_after_first_call : FinishesWith (handleChunks {} ([called none,said "" (some "STOP")].map ([·]))) "tool_calls" :=
  (stream_finish_iff [called none] (said "" (some "STOP")) (by simp [called]) (.inl rfl)).mpr
    (by simp [CallsInPlace,said,GeminiChatCandidate.calls,GeminiPart.call?])

theorem finish_twice_and_never :
    finishes (handleChunks {} ([said "hi" none,called (some "STOP")].map ([·]))) = ["tool_calls","stop"] ∧
      finishes (handleChunks {} ([called (some "MAX_TOKENS")].map ([·]))) = [] := by
  decide

end LurusHub.GeminiUpstream
