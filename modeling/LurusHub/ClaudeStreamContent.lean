import LurusHub.ClaudeStream
import LurusHub.Fragments

/-! What the client reads in a converted stream: text, thinking and the JSON of each tool call.
Every fragment is passed on whole or not at all, so nothing is lost exactly when no step drops a
fragment that says something. -/
namespace LurusHub.ClaudeStream
open Pricing StreamChunk Transition Fragments ClaudeResponse ChatCompletionsStreamResponse

def ClaudeResponse.text? : ClaudeResponse → Option String
  | .contentBlockDelta _ (.textDelta text) => some text
  | _ => none

def ClaudeResponse.thinking? : ClaudeResponse → Option String
  | .contentBlockDelta _ (.thinkingDelta thinking) => some thinking
  | _ => none

def ClaudeResponse.json? (index : ℤ) : ClaudeResponse → Option String
  | .contentBlockDelta i (.inputJsonDelta partialJson) => if i = index then some partialJson else none
  | _ => none

def readBy (p : ClaudeResponse → Option String) (sent : List ClaudeResponse) : String := concat (sent.filterMap p)

section
variable (p : ClaudeResponse → Option String)

@[simp] lemma readBy_nil : readBy p [] = "" := rfl

@[simp] lemma readBy_append : readBy p (a++b) = readBy p a++readBy p b := by
  simp [readBy]

lemma readBy_cons : readBy p (e::sent) = (p e).getD ""++readBy p sent := by
  cases h : p e <;> simp [readBy,h]

end

structure DeltasOnly (p : ClaudeResponse → Option String) : Prop where
  messageStart : ∀ id model tokens, p (.messageStart id model tokens) = none
  blockStart : ∀ index block, p (.contentBlockStart index block) = none
  blockStop : ∀ index, p (.contentBlockStop index) = none
  messageDelta : ∀ reason usage, p (.messageDelta reason usage) = none
  messageStop : p .messageStop = none

lemma text?_deltasOnly : DeltasOnly text? := by constructor <;> intros <;> rfl

lemma thinking?_deltasOnly : DeltasOnly thinking? := by constructor <;> intros <;> rfl

lemma json?_deltasOnly : DeltasOnly (json? index) := by
  constructor <;> intros <;> rfl

lemma readBy_terminal (hp : DeltasOnly p) : readBy p (claudeTerminalEvents chunkUsage info).1 = "" := by
  unfold claudeTerminalEvents
  split
  · rfl
  · simp [readBy_cons,hp.messageDelta,hp.messageStop]

/-! The three kinds, step by step. -/

def stepReads (p : ClaudeResponse → Option String) (x : Stream × Feed) : String :=
  readBy p (streamResponseOpenAI2Claude x.2.chunk (x.1.info.entering x.2)).1

lemma readBy_run : readBy p (run step s feeds).sent =
      readBy p s.sent++concat ((trace step s feeds).map (stepReads p)) := by
  induction feeds generalizing s with
  | nil => simp [trace]
  | cons f feeds ih =>
    rw [run_cons,ih]
    simp [trace,step,Stream.send,stepReads,String.append_assoc]

lemma stepReads_done (h : x.1.info.done) : stepReads p x = "" := by
  simp [stepReads,streamResponseOpenAI2Claude,Info.entering,h]

lemma stepReads_open (hp : DeltasOnly p) (hd : x.1.info.done = false) :
    stepReads p x = readBy p (said x.2.chunk.delta (x.1.info.entering x.2)).1 := by
  have hend : ∀ info, readBy p (ending x.2.chunk info).1 = "" := by
    intro info
    unfold ending
    split
    · rfl
    · simp [finishEvents,readBy_cons,hp.blockStop,readBy_terminal hp]
  rw [stepReads,stream_eq (by exact hd)]
  simp only [begun,readBy_append,hend]
  split <;> simp [readBy_cons,hp.messageStart]

lemma said_entering (delta : ChoiceDelta) (info : Info) (f : Feed) : said delta (info.entering f) =
    if info.sendResponseCount = 0 then firstSaid delta (info.entering f) else laterContent delta (info.entering f) := by
  simp [said,Info.entering]

lemma readBy_toolCalls (hp : DeltasOnly p)
    (hjson : ∀ index json, p (.contentBlockDelta index (.inputJsonDelta json)) = none) :
    (∀ info toolCalls, readBy p (firstToolCall info toolCalls).1 = "") ∧
      ∀ several i toolCalls info, readBy p (convertToolCalls several i toolCalls info).1 = "" := by
  constructor
  · intro info toolCalls
    cases toolCalls with
    | nil => rfl
    | cons toolCall _ =>
      simp only [firstToolCall,readBy_cons,hp.blockStart]
      split <;> simp [readBy_cons,hjson]
  · intro several i toolCalls
    induction toolCalls generalizing i with
    | nil => exact fun _ => rfl
    | cons toolCall toolCalls ih =>
      intro info
      simp only [convertToolCalls,readBy_append,ih]
      split <;> split <;> simp [readBy_cons,hp.blockStart,hjson]

lemma readBy_laterToolCalls (hp : DeltasOnly p)
    (hjson : ∀ index json, p (.contentBlockDelta index (.inputJsonDelta json)) = none)
    (info : Info) : readBy p (laterToolCalls toolCalls info).1 = "" := by
  unfold laterToolCalls
  split <;> simp [readBy_cons,hp.blockStop,(readBy_toolCalls hp hjson).2]

theorem stepReads_text (hd : x.1.info.done = false) : stepReads text? x =
      if x.1.info.sendResponseCount = 0 then
        (if x.2.chunk.delta.getReasoningContent ≠ "" then "" else x.2.chunk.delta.getContentString)
      else if x.2.chunk.delta.toolCalls ≠ [] ∨ x.2.chunk.delta.getReasoningContent ≠ "" then ""
      else x.2.chunk.delta.getContentString := by
  have hjson : ∀ index j, text? (.contentBlockDelta index (.inputJsonDelta j)) = none := fun _ _ => rfl
  rw [stepReads_open text?_deltasOnly hd,said_entering]
  split
  · rw [firstSaid,readBy_append,(readBy_toolCalls text?_deltasOnly hjson).1]
    unfold firstContent
    split_ifs <;> simp_all [readBy_cons,text?]
  · unfold laterContent
    split_ifs with h₁ h₂ h₃ <;> simp_all [readBy_laterToolCalls text?_deltasOnly hjson]
    · unfold laterThinking
      split <;> simp [readBy_cons,text?]
    · unfold laterText
      split <;> simp [readBy_cons,text?]

theorem stepReads_thinking (hd : x.1.info.done = false) : stepReads thinking? x =
      if x.1.info.sendResponseCount = 0 then x.2.chunk.delta.getReasoningContent
      else if x.2.chunk.delta.toolCalls ≠ [] then "" else x.2.chunk.delta.getReasoningContent := by
  have hjson : ∀ index j, thinking? (.contentBlockDelta index (.inputJsonDelta j)) = none :=
    fun _ _ => rfl
  rw [stepReads_open thinking?_deltasOnly hd,said_entering]
  split
  · rw [firstSaid,readBy_append,(readBy_toolCalls thinking?_deltasOnly hjson).1]
    unfold firstContent
    split_ifs <;> simp_all [readBy_cons,thinking?]
  · unfold laterContent
    split_ifs with h₁ h₂ h₃ <;> simp_all [readBy_laterToolCalls thinking?_deltasOnly hjson]
    · unfold laterThinking
      split <;> simp [readBy_cons,thinking?]
    · unfold laterText
      split <;> simp [readBy_cons,thinking?]

def routed (x : Stream × Feed) : List (Option ℤ × ToolCallResponse) :=
  if x.1.info.done then x.2.chunk.delta.toolCalls.map fun c => (none,c)
  else if x.1.info.sendResponseCount = 0 then
    match x.2.chunk.delta.toolCalls with
    | [] => []
    | c::cs => (some 0,c)::cs.map fun c => (none,c)
  else x.2.chunk.delta.toolCalls.map fun c => (c.index,c)

lemma map_snd_routed : (routed x).map Prod.snd = x.2.chunk.delta.toolCalls := by
  unfold routed
  split
  · simp
  · split
    · split <;> simp_all
    · rw [List.map_map]
      exact List.map_id _

lemma readBy_convertToolCalls (i : ℕ) (hindex : ∀ c ∈ toolCalls, c.index.isSome) (info : Info) :
    readBy (json? k) (convertToolCalls several i toolCalls info).1 =
      concat (toolCalls.map fun c => if c.index = some k then c.arguments else "") := by
  induction toolCalls generalizing i info with
  | nil => rfl
  | cons c cs ih =>
    obtain ⟨index,hc⟩ := Option.isSome_iff_exists.mp (hindex c List.mem_cons_self)
    have hblo : blockIndex info several i c = index := by simp [blockIndex,hc]
    have hrest := ih (i+1) (fun c hc => hindex c (List.mem_cons_of_mem _ hc)) { info with index := index }
    simp only [convertToolCalls,readBy_append,hblo,List.map_cons,concat_cons,hc]
    congr 1
    by_cases hk : index = k <;> by_cases harg : c.arguments = "" <;>
      simp [hk,harg,readBy_cons,json?] <;>
      split <;> simp [readBy_cons,json?]

lemma stepReads_json (hzero : x.1.info.sendResponseCount = 0 → x.1.info.index = 0)
    (hindex : ∀ c ∈ x.2.chunk.delta.toolCalls, c.index.isSome) : stepReads (json? k) x =
      concat ((routed x).map fun r => if r.1 = some k then r.2.arguments else "") := by
  cases hd : x.1.info.done with
  | true =>
    rw [stepReads_done hd]
    simp [routed,hd,Function.comp_def]
  | false =>
    set toolCalls := x.2.chunk.delta.toolCalls with htc
    have hlater : ∀ info, readBy (json? k) (laterContent x.2.chunk.delta info).1 =
        concat (toolCalls.map fun c => if c.index = some k then c.arguments else "") := by
      intro info
      unfold laterContent
      split_ifs with h₁ h₂ h₃
      · unfold laterToolCalls
        split <;> simp [readBy_cons,json?,readBy_convertToolCalls 0 hindex,← htc]
      · unfold laterThinking
        split <;> simp_all [readBy_cons,json?]
      · unfold laterText
        split <;> simp_all [readBy_cons,json?]
      · simp_all
    rw [stepReads_open json?_deltasOnly hd,said_entering]
    by_cases hcount : x.1.info.sendResponseCount = 0
    · have hcon : ∀ info, readBy (json? k) (firstContent x.2.chunk.delta info).1 = "" := by
        intro info
        unfold firstContent
        split_ifs <;> simp [readBy_cons,json?]
      have hzero' : (x.1.info.entering x.2).index = 0 := hzero hcount
      simp only [hcount,if_true,firstSaid,readBy_append,hcon,routed,hd,Bool.false_eq_true,if_false,← htc]
      cases toolCalls with
      | nil => simp [firstToolCall]
      | cons c cs =>
        have hrest : concat ((cs.map fun c => ((none : Option ℤ),c)).map
            fun r => if r.1 = some k then r.2.arguments else "") = "" := by simp [Function.comp_def]
        simp only [firstToolCall,hzero',List.map_cons,concat_cons,hrest]
        by_cases hk : (0 : ℤ) = k <;> by_cases harg : c.arguments = "" <;>
          simp [hk,harg,readBy_cons,json?]
    · simp [hcount,hlater,routed,hd,← htc,Function.comp_def]

/-! The whole stream. -/

def contents (feeds : List Feed) : String := concat (feeds.map fun f => f.chunk.delta.getContentString)

def reasonings (feeds : List Feed) : String := concat (feeds.map fun f => f.chunk.delta.getReasoningContent)

def arguments (index : ℤ) (feeds : List Feed) : String :=
  concat (feeds.map fun f =>
    concat (f.chunk.delta.toolCalls.map fun c => if c.index = some index then c.arguments else ""))

structure SaysAll (sent : List ClaudeResponse) (feeds : List Feed) : Prop where
  text : readBy ClaudeResponse.text? sent = contents feeds
  thinking : readBy ClaudeResponse.thinking? sent = reasonings feeds
  json : ∀ index, readBy (ClaudeResponse.json? index) sent = arguments index feeds

/-- The chunk says nothing the step would drop: nothing once the message has ended; in the first
chunk no text beside thinking, and arguments of call 0 alone; in a later one nothing beside tool
calls, and no text beside thinking. -/
def Lossless (s : Stream) (f : Feed) : Prop :=
  if s.info.done then
    f.chunk.delta.getContentString = "" ∧ f.chunk.delta.getReasoningContent = "" ∧
      ∀ c ∈ f.chunk.delta.toolCalls, c.arguments = ""
  else
    (f.chunk.delta.getReasoningContent ≠ "" → f.chunk.delta.getContentString = "") ∧
      if s.info.sendResponseCount = 0 then
        (∀ c ∈ f.chunk.delta.toolCalls.head?, c.index = some 0 ∨ c.arguments = "") ∧
          ∀ c ∈ f.chunk.delta.toolCalls.tail, c.arguments = ""
      else f.chunk.delta.toolCalls ≠ [] →
        f.chunk.delta.getContentString = "" ∧ f.chunk.delta.getReasoningContent = ""
  deriving Decidable

lemma stepReads_text_cases :
    stepReads text? x = x.2.chunk.delta.getContentString ∨ stepReads text? x = "" := by
  cases hd : x.1.info.done with
  | true => exact .inr (stepReads_done hd)
  | false =>
    rw [stepReads_text hd]
    split_ifs <;> simp

lemma stepReads_thinking_cases :
    stepReads thinking? x = x.2.chunk.delta.getReasoningContent ∨
      stepReads thinking? x = "" := by
  cases hd : x.1.info.done with
  | true => exact .inr (stepReads_done hd)
  | false =>
    rw [stepReads_thinking hd]
    split_ifs <;> simp

lemma routed_cases (hr : r ∈ routed x) : r.1 = none ∨ r.1 = r.2.index ∨ r.1 = some 0 := by
  unfold routed at hr
  split at hr
  · obtain ⟨c,_,rfl⟩ := List.mem_map.mp hr
    exact .inl rfl
  · split at hr
    · split at hr
      · cases hr
      · rcases List.mem_cons.mp hr with rfl | hr
        · exact .inr (.inr rfl)
        · obtain ⟨c,_,rfl⟩ := List.mem_map.mp hr
          exact .inl rfl
    · obtain ⟨c,_,rfl⟩ := List.mem_map.mp hr
      exact .inr (.inl rfl)

lemma lossless_iff (hindex : ∀ c ∈ x.2.chunk.delta.toolCalls, c.index.isSome) :
    Lossless x.1 x.2 ↔ stepReads text? x = x.2.chunk.delta.getContentString ∧
      stepReads thinking? x = x.2.chunk.delta.getReasoningContent ∧
      ∀ r ∈ routed x, r.1 = r.2.index ∨ r.2.arguments = "" := by
  cases hd : x.1.info.done with
  | true =>
    simp only [Lossless,hd,if_true,stepReads_done hd,routed,List.forall_mem_map]
    grind
  | false =>
    rw [stepReads_text hd,stepReads_thinking hd]
    simp only [Lossless,hd,Bool.false_eq_true,if_false,routed]
    by_cases hcount : x.1.info.sendResponseCount = 0
    · simp only [hcount,if_true]
      cases hcalls : x.2.chunk.delta.toolCalls with
      | nil => simp
      | cons c cs =>
        simp only [List.forall_mem_cons,List.forall_mem_map]
        grind
    · grind

lemma concat_trace : concat (feeds.map g) = concat ((trace step s feeds).map fun x => g x.2) := by
  rw [← map_snd_trace step s feeds,List.map_map,map_snd_trace]
  rfl

def Numbered (s : Stream) : Prop := s.info.sendResponseCount = 0 → s.info.index = 0

lemma numbered_step (s : Stream) (f : Feed) (_ : Numbered s) : Numbered (step s f) := by
  intro h
  rw [step_count] at h
  exact absurd h (Nat.succ_ne_zero _)

lemma readBy_converted : readBy p (converted est feeds).sent =
      concat ((trace step (.open est) feeds).map (stepReads p)) := by
  rw [converted,readBy_run]
  simp [Stream.open]

theorem arguments_kept_iff
    (hcalls : ∀ x ∈ trace step (.open est) feeds, ∀ c ∈ x.2.chunk.delta.toolCalls, c.index.isSome) :
    (∀ k, readBy (ClaudeResponse.json? k) (converted est feeds).sent = arguments k feeds) ↔
      ∀ r ∈ (trace step (.open est) feeds).flatMap routed, r.1 = r.2.index ∨ r.2.arguments = "" := by
  set tr := trace step (.open est) feeds with htr
  have hnum := trace_invariant numbered_step (s:=.open est) (fun _ => rfl) feeds
  have hkept : ∀ k, readBy (json? k) (converted est feeds).sent =
      concat ((tr.flatMap routed).map fun r => if r.1 = some k then r.2.arguments else "") := by
    intro k
    rw [readBy_converted,concat_flatMap]
    congr 1
    exact List.map_congr_left fun x hx => stepReads_json (hnum x hx) (hcalls x hx)
  have hsaid : ∀ k, arguments k feeds =
      concat ((tr.flatMap routed).map fun r => if r.2.index = some k then r.2.arguments else "") := by
    intro k
    rw [arguments,concat_trace,concat_flatMap]
    congr 1
    refine List.map_congr_left fun x _ => ?_
    rw [← map_snd_routed,List.map_map]
    rfl
  simp only [hkept,hsaid]
  refine routed_eq_iff (d:=0) (fun r hr => ?_) (fun r hr => ?_)
  · obtain ⟨x,_,hr⟩ := List.mem_flatMap.mp hr
    exact routed_cases hr
  · obtain ⟨x,hx,hr⟩ := List.mem_flatMap.mp hr
    refine hcalls x hx r.2 ?_
    rw [← map_snd_routed]
    exact List.mem_map_of_mem hr

theorem stream_says_all_iff_lossless (estimatePromptTokens : Int64) (feeds : List Feed)
    (hindex : ∀ f ∈ feeds, ∀ c ∈ f.chunk.delta.toolCalls, c.index.isSome) :
    SaysAll (converted estimatePromptTokens feeds).sent feeds ↔
      Along step Lossless (.open estimatePromptTokens) feeds := by
  set s := Stream.open estimatePromptTokens with hs
  set tr := trace step s feeds with htr
  have hcalls : ∀ x ∈ tr, ∀ c ∈ x.2.chunk.delta.toolCalls, c.index.isSome := by
    intro x hx
    refine hindex x.2 ?_
    rw [← map_snd_trace step s feeds]
    exact List.mem_map_of_mem hx
  have htext : readBy text? (converted estimatePromptTokens feeds).sent = contents feeds ↔
      ∀ x ∈ tr, stepReads text? x = x.2.chunk.delta.getContentString := by
    rw [readBy_converted,contents,concat_trace]
    exact concat_eq_iff fun x _ => stepReads_text_cases
  have hthinking : readBy thinking? (converted estimatePromptTokens feeds).sent = reasonings feeds ↔
      ∀ x ∈ tr, stepReads thinking? x = x.2.chunk.delta.getReasoningContent := by
    rw [readBy_converted,reasonings,concat_trace]
    exact concat_eq_iff fun x _ => stepReads_thinking_cases
  have hjson := arguments_kept_iff hcalls
  rw [along_iff_trace]
  constructor
  · rintro ⟨h₁,h₂,h₃⟩ x hx
    rw [lossless_iff (hcalls x hx)]
    refine ⟨htext.mp h₁ x hx,hthinking.mp h₂ x hx,fun r hr => ?_⟩
    exact hjson.mp h₃ r (List.mem_flatMap.mpr ⟨x,hx,hr⟩)
  · intro h
    have hall : ∀ x ∈ tr, _ := fun x hx => (lossless_iff (hcalls x hx)).mp (h x hx)
    refine ⟨htext.mpr fun x hx => (hall x hx).1,hthinking.mpr fun x hx => (hall x hx).2.1,hjson.mpr ?_⟩
    intro r hr
    obtain ⟨x,hx,hr⟩ := List.mem_flatMap.mp hr
    exact (hall x hx).2.2 r hr

theorem mixed_chunks_lose_content :
    let said (delta : ChoiceDelta) : Feed := ⟨⟨"c","m",[{ delta }],none⟩,none⟩
    let call (index : ℤ) (arguments : String) : ToolCallResponse := ⟨some index,"id","f",arguments⟩
    let hello := said { content := some "hello " }
    let both := said { content := some "world", reasoning := some "hm" }
    let talking := said { content := some "world", sentToolCalls := some [call 0 "x"] }
    let parallel := said { sentToolCalls := some [call 0 "x",call 1 "y"] }
    readBy ClaudeResponse.text? (converted 0 [hello,both]).sent ≠ contents [hello,both] ∧
      readBy ClaudeResponse.text? (converted 0 [hello,talking]).sent ≠ contents [hello,talking] ∧
      readBy (ClaudeResponse.json? 1) (converted 0 [parallel]).sent ≠ arguments 1 [parallel] := by
  decide

theorem separate_chunks_say_all :
    let said (delta : ChoiceDelta) : Feed := ⟨⟨"c","m",[{ delta }],none⟩,none⟩
    let feeds := [said { reasoning := some "hm" },said { content := some "hi" },
      said { sentToolCalls := some [⟨some 0,"id","f","x"⟩] },said { sentToolCalls := some [⟨some 0,"","","y"⟩] }]
    (∀ f ∈ feeds, ∀ c ∈ f.chunk.delta.toolCalls, c.index.isSome) ∧
      SaysAll (converted 0 feeds).sent feeds := by
  intro said feeds
  have hindex : ∀ f ∈ feeds, ∀ c ∈ f.chunk.delta.toolCalls, c.index.isSome := by decide
  exact ⟨hindex,(stream_says_all_iff_lossless 0 feeds hindex).mpr (by decide)⟩

end LurusHub.ClaudeStream
