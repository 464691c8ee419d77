import LurusHub.ClaudeStream

/-! The block structure of a converted stream. A reader tracks the open block, the next index and
whether the terminal pair has come; a stream is well formed if no event is out of place. The
converter has no such state, so chunks must come in an order it foresees. -/
namespace LurusHub.ClaudeStream
open Pricing StreamChunk Transition Info

structure Reader where
  openBlock : Option ℤ := none
  next : ℤ := 0
  ended : Bool := false
  deriving DecidableEq

def Reader.read (r : Reader) : ClaudeResponse → Option Reader
  | .messageStart .. => none
  | .contentBlockStart index _ =>
    if r.openBlock = none ∧ index = r.next ∧ r.ended = false then some ⟨some index,r.next+1,false⟩ else none
  | .contentBlockDelta index _ => if r.openBlock = some index then some r else none
  | .contentBlockStop index => if r.openBlock = some index then some { r with openBlock := none } else none
  | .messageDelta .. | .messageStop => if r.openBlock = none then some { r with ended := true } else none

/-- message_start first and once, blocks numbered from 0 and open one at a time, deltas and stops
for the open block, all closed before the terminal events. -/
def WellFormed : List ClaudeResponse → Prop
  | .messageStart ..::rest => (rest.foldlM Reader.read {}).any fun r => r.openBlock = none
  | _ => False

instance : ∀ sent, Decidable (WellFormed sent)
  | .messageStart ..::rest => inferInstanceAs (Decidable (Option.any _ (rest.foldlM Reader.read {}) = true))
  | [] | .contentBlockStart ..::_ | .contentBlockDelta ..::_ | .contentBlockStop _::_ | .messageDelta ..::_
  | .messageStop::_ => isFalse id

def Reads (r : Reader) (events : List ClaudeResponse) (r' : Reader) : Prop := events.foldlM Reader.read r = some r'

lemma Reads.nil (r : Reader) : Reads r [] r := rfl

lemma Reads.cons (h : r.read e = some r') (hrest : Reads r' events r'') : Reads r (e::events) r'' := by
  rw [Reads,List.foldlM_cons,h]
  exact hrest

lemma Reads.append (ha : Reads r a r') (hb : Reads r' b r'') : Reads r (a++b) r'' := by
  rw [Reads,List.foldlM_append,ha]
  exact hb

/-- The reader of a message that is open: at the converter's index once anything was said. -/
def Info.reader (info : Info) : Reader :=
  match info.lastMessagesType with
  | .none => {}
  | _ => ⟨some info.index,info.index+1,false⟩

variable {info : Info} {chunk : ChatCompletionsStreamResponse}

lemma reader_said (h : info.lastMessagesType ≠ .none) :
    info.reader = ⟨some info.index,info.index+1,false⟩ := by
  unfold reader
  split
  · exact absurd ‹_› h
  · rfl

/-- Before anything was said the index is 0. -/
def Info.Fresh (info : Info) : Prop := info.lastMessagesType = .none → info.index = 0

lemma read_start (hf : info.Fresh) (h : info.lastMessagesType = .none) :
    info.reader.read (.contentBlockStart info.index block) = some ⟨some info.index,info.index+1,false⟩ := by
  simp [reader,h,Reader.read,hf h]

lemma read_delta (h : info.lastMessagesType ≠ .none) (delta : BlockDelta) :
    info.reader.read (.contentBlockDelta info.index delta) = some info.reader := by
  simp [reader_said h,Reader.read]

def Continues (index : ℤ) (toolCalls : List ToolCallResponse) : Prop :=
  ∀ c ∈ toolCalls, c.name = "" ∧ c.index = some index

/-- A new tool call, to be numbered `index`, and fragments of it. -/
def Opens (index : ℤ) : List ToolCallResponse → Prop
  | [] => False
  | c::cs => c.name ≠ "" ∧ (∀ k ∈ c.index, k = index) ∧ Continues index cs

/-- What a later chunk may say: a tool call numbered after the open text or thinking, fragments of
the open tool call, thinking unless text or a tool call came before, text at any time. -/
def Follows (info : Info) (delta : ChoiceDelta) : Prop :=
  if delta.toolCalls ≠ [] then
    match info.lastMessagesType with
    | .none => False
    | .tools => Continues info.index delta.toolCalls
    | .text | .thinking => Opens (info.index+1) delta.toolCalls
  else delta.getReasoningContent ≠ "" → info.lastMessagesType = .none ∨ info.lastMessagesType = .thinking

instance : ∀ (index : ℤ) (toolCalls : List ToolCallResponse), Decidable (Opens index toolCalls)
  | _,[] => isFalse id
  | index,c::cs => inferInstanceAs (Decidable (c.name ≠ "" ∧ (∀ k ∈ c.index, k = index) ∧
      ∀ c ∈ cs, c.name = "" ∧ c.index = some index))

instance (info : Info) (delta : ChoiceDelta) : Decidable (Follows info delta) := by
  delta Follows Continues
  cases info.lastMessagesType <;> infer_instance

def Says (delta : ChoiceDelta) : Prop := delta.getReasoningContent ≠ "" ∨ delta.getContentString ≠ ""

def Speaks (delta : ChoiceDelta) : Prop := delta.toolCalls ≠ [] ∨ Says delta

instance (delta : ChoiceDelta) : Decidable (Says delta) := by delta Says; infer_instance
instance (delta : ChoiceDelta) : Decidable (Speaks delta) := by delta Speaks; infer_instance

lemma convertToolCalls_reads (i : ℕ)
    (hsaid : info.lastMessagesType ≠ .none) (h : Continues info.index toolCalls) :
    (convertToolCalls several i toolCalls info).2 = info ∧
      Reads info.reader (convertToolCalls several i toolCalls info).1 info.reader := by
  induction toolCalls generalizing i with
  | nil => exact ⟨rfl,Reads.nil _⟩
  | cons c cs ih =>
    obtain ⟨hname,hindex⟩ := h c List.mem_cons_self
    have hblo : blockIndex info several i c = info.index := by simp [blockIndex,hindex]
    obtain ⟨hinfo,hrea⟩ := ih (i+1) fun c hc => h c (List.mem_cons_of_mem _ hc)
    simp only [convertToolCalls,hname,hblo,ne_eq,not_true_eq_false,if_false]
    refine ⟨hinfo,Reads.append ?_ hrea⟩
    split
    · exact Reads.cons (read_delta hsaid _) (Reads.nil _)
    · exact Reads.nil _

lemma convertToolCalls_opens (hsaid : info.lastMessagesType ≠ .none) (h : Opens info.index toolCalls) :
    (convertToolCalls several 0 toolCalls info).2 = info ∧
      Reads ⟨none,info.index,false⟩ (convertToolCalls several 0 toolCalls info).1 info.reader := by
  cases toolCalls with
  | nil => exact absurd h id
  | cons c cs =>
    obtain ⟨hname,hindex,hrest⟩ := h
    have hblo : blockIndex info several 0 c = info.index := by
      unfold blockIndex
      split
      · next k hk => exact hindex k hk
      · simp
    obtain ⟨hinfo,hrea⟩ := convertToolCalls_reads 1 hsaid hrest
    have hstart : Reader.read ⟨none,info.index,false⟩ (.contentBlockStart info.index (.toolUse c.id c.name)) =
        some info.reader := by simp [Reader.read,reader_said hsaid]
    simp only [convertToolCalls,if_pos hname,hblo]
    refine ⟨hinfo,Reads.cons hstart (Reads.append ?_ hrea)⟩
    split
    · exact Reads.cons (read_delta hsaid _) (Reads.nil _)
    · exact Reads.nil _

lemma laterToolCalls_reads
    (h : match info.lastMessagesType with
      | .none => False
      | .tools => Continues info.index toolCalls
      | .text | .thinking => Opens (info.index+1) toolCalls) :
    Reads info.reader (laterToolCalls toolCalls info).1 (laterToolCalls toolCalls info).2.reader ∧
      (laterToolCalls toolCalls info).2.lastMessagesType ≠ .none := by
  have hnew : info.lastMessagesType ≠ .none → info.lastMessagesType ≠ .tools → Opens (info.index+1) toolCalls →
      Reads info.reader (laterToolCalls toolCalls info).1 (laterToolCalls toolCalls info).2.reader ∧
        (laterToolCalls toolCalls info).2.lastMessagesType ≠ .none := by
    intro hsaid hother hope
    let info' : Info := { info with index := info.index+1, lastMessagesType := .tools }
    have hlater : laterToolCalls toolCalls info =
        (.contentBlockStop info.index::(convertToolCalls (decide (1 < toolCalls.length)) 0 toolCalls info').1,
          (convertToolCalls (decide (1 < toolCalls.length)) 0 toolCalls info').2) := by
      rw [laterToolCalls,if_pos hother]
    obtain ⟨hinfo,hrea⟩ := convertToolCalls_opens
      (show info'.lastMessagesType ≠ .none by simp [info']) hope
    rw [hlater,hinfo,reader_said hsaid]
    exact ⟨Reads.cons (by simp [Reader.read,info']) hrea,by simp [info']⟩
  split at h
  · exact h.elim
  · next ht =>
    have hsaid : info.lastMessagesType ≠ .none := by simp [ht]
    obtain ⟨hinfo,hrea⟩ := convertToolCalls_reads 0 hsaid h
    rw [laterToolCalls,if_neg (not_not.mpr ht),hinfo]
    exact ⟨hrea,hsaid⟩
  · next ht => exact hnew (by simp [ht]) (by simp [ht]) h
  · next ht => exact hnew (by simp [ht]) (by simp [ht]) h

lemma laterThinking_reads (hf : info.Fresh)
    (h : info.lastMessagesType = .none ∨ info.lastMessagesType = .thinking) :
    Reads info.reader (laterThinking reasoning info).1 (laterThinking reasoning info).2.reader := by
  have hsaid : (laterThinking reasoning info).2.reader = ⟨some info.index,info.index+1,false⟩ := rfl
  rw [hsaid]
  rcases h with h | h
  · simp only [laterThinking,h]
    exact Reads.cons (read_start hf h) (Reads.cons (by simp [Reader.read]) (Reads.nil _))
  · rw [reader_said (by simp [h])]
    simp only [laterThinking,h]
    exact Reads.cons (by simp [Reader.read]) (Reads.nil _)

lemma laterText_reads (hf : info.Fresh) :
    Reads info.reader (laterText text info).1 (laterText text info).2.reader := by
  unfold laterText
  split
  · next h =>
    rw [reader_said (by simp [h])]
    exact Reads.cons (by simp [Reader.read]) (Reads.nil _)
  · next h =>
    exact Reads.cons (read_start hf h) (Reads.cons (by simp [Reader.read]; rfl) (Reads.nil _))
  all_goals next h =>
    rw [reader_said (by simp [h])]
    exact Reads.cons (by simp [Reader.read]; rfl) (Reads.cons (by simp [Reader.read]; rfl)
      (Reads.cons (by simp [Reader.read]; rfl) (Reads.nil _)))

lemma laterContent_reads (info : Info) (hf : info.Fresh) (h : Follows info delta) :
    Reads info.reader (laterContent delta info).1 (laterContent delta info).2.reader ∧
      (laterContent delta info).2.Fresh := by
  unfold Follows at h
  unfold laterContent
  split_ifs with hcalls hreas htext
  · rw [if_pos hcalls] at h
    obtain ⟨hrea,hsaid⟩ := laterToolCalls_reads h
    exact ⟨hrea,fun hnone => absurd hnone hsaid⟩
  · rw [if_neg hcalls] at h
    exact ⟨laterThinking_reads hf (h hreas),nofun⟩
  · refine ⟨laterText_reads hf,fun h => ?_⟩
    unfold laterText at h
    split at h <;> simp_all
  · exact ⟨Reads.nil _,hf⟩

lemma laterContent_said (info : Info) (h : Speaks delta ∨ info.lastMessagesType ≠ .none) :
    (laterContent delta info).2.lastMessagesType ≠ .none := by
  have hcalls : ∀ several i toolCalls (info : Info),
      (convertToolCalls several i toolCalls info).2.lastMessagesType = info.lastMessagesType := by
    intro several i toolCalls
    induction toolCalls generalizing i with
    | nil => exact fun _ => rfl
    | cons c cs ih => exact fun info => ih (i+1) _
  unfold laterContent
  split_ifs with h₁ h₂ h₃
  · unfold laterToolCalls
    split_ifs with ht
    · simp [hcalls]
    · rw [hcalls,not_not.mp ht]
      simp
  · simp [laterThinking]
  · unfold laterText
    split <;> simp_all
  · simp only [Speaks,Says,h₁,h₂,h₃,false_or] at h
    exact h

lemma firstContent_reads (hf : info.Fresh) (hopen : Says delta → info.lastMessagesType = .none) :
    Reads info.reader (firstContent delta info).1 (firstContent delta info).2.reader ∧
      (firstContent delta info).2.Fresh := by
  unfold firstContent
  split_ifs with h₁ h₂
  · refine ⟨?_,by simp [Info.Fresh]⟩
    have hnone := hopen (.inl h₁)
    exact Reads.cons (read_start hf hnone) (Reads.cons (by simp [Reader.read]; rfl) (Reads.nil _))
  · refine ⟨?_,by simp [Info.Fresh]⟩
    have hnone := hopen (.inr h₂)
    exact Reads.cons (read_start hf hnone) (Reads.cons (by simp [Reader.read]; rfl) (Reads.nil _))
  · exact ⟨Reads.nil _,hf⟩

lemma firstToolCall_said (h : toolCalls ≠ [] ∨ info.lastMessagesType ≠ .none) :
    (firstToolCall info toolCalls).2.lastMessagesType ≠ .none := by
  cases toolCalls with
  | nil => simpa [firstToolCall] using h
  | cons c cs => simp [firstToolCall]

lemma firstContent_said (h : Says delta ∨ info.lastMessagesType ≠ .none) :
    (firstContent delta info).2.lastMessagesType ≠ .none := by
  unfold firstContent
  split_ifs with h₁ h₂
  · simp
  · simp
  · simpa [Says,h₁,h₂] using h

lemma terminal_reads (h : r.openBlock = none) (stopReason : String) (usage : ClaudeUsage) :
    Reads r [.messageDelta stopReason usage,.messageStop] { r with ended := true } :=
  Reads.cons (by simp [Reader.read,h]; rfl) (Reads.cons (by simp [Reader.read,h]) (Reads.nil _))

/-! From chunk to chunk. -/

/-- The reader and the converter agree: a message that has ended, or whose finish reason was seen,
has no open block. -/
def Tracks (info : Info) (r : Reader) : Prop :=
  if info.done then r.openBlock = none
  else if info.finishReason ≠ "" then r.openBlock = none ∧ r.ended = false
  else r = info.reader ∧ info.Fresh

/-- A stream that has not begun, or one that a reader has read so far. -/
def Shaped (s : Stream) : Prop :=
  if s.info.sendResponseCount = 0 then
    s.sent = [] ∧ s.info.done = false ∧ s.info.finishReason = "" ∧ s.info.lastMessagesType = .none ∧ s.info.index = 0
  else ∃ id model tokens rest r,
    s.sent = .messageStart id model tokens::rest ∧ Reads {} rest r ∧ Tracks s.info r

/-- A first chunk with a tool call says nothing else; a later one follows what is open; nothing is
said after a finish reason, and there is none before something was said. -/
def Orderly (s : Stream) (f : Feed) : Prop :=
  s.info.done = true ∨
    if s.info.sendResponseCount = 0 then
      (f.chunk.delta.toolCalls ≠ [] → ¬Says f.chunk.delta) ∧
        (f.chunk.doneReason.isSome → Speaks f.chunk.delta)
    else if s.info.finishReason ≠ "" then ¬Speaks f.chunk.delta ∧ f.chunk.doneReason = none
    else Follows s.info f.chunk.delta ∧
      (f.chunk.doneReason.isSome → Speaks f.chunk.delta ∨ s.info.lastMessagesType ≠ .none)
  deriving Decidable

lemma firstToolCall_reads (toolCalls : List ToolCallResponse)
    (hlast : info.lastMessagesType = .none) (hindex : info.index = 0) :
    Reads info.reader (firstToolCall info toolCalls).1 (firstToolCall info toolCalls).2.reader ∧
      (firstToolCall info toolCalls).2.Fresh ∧
      ((firstToolCall info toolCalls).2.lastMessagesType = if toolCalls = [] then .none else .tools) := by
  cases toolCalls with
  | nil => exact ⟨Reads.nil _,fun _ => hindex,hlast⟩
  | cons c cs =>
    refine ⟨?_,by simp [firstToolCall,Info.Fresh],by simp [firstToolCall]⟩
    have hstart : info.reader.read (.contentBlockStart 0 (.toolUse c.id c.name)) = some ⟨some 0,1,false⟩ := by
      simp [reader,hlast,Reader.read]
    have hend : (firstToolCall info (c::cs)).2.reader = ⟨some 0,1,false⟩ := by
      simp [firstToolCall,reader,hindex]
    rw [hend]
    refine Reads.cons hstart ?_
    split
    · exact Reads.cons (by simp [Reader.read,hindex]) (Reads.nil _)
    · exact Reads.nil _

/-- What may be said while the message is open. -/
def Allowed (info : Info) (delta : ChoiceDelta) : Prop :=
  if info.sendResponseCount = 1 then delta.toolCalls ≠ [] → ¬Says delta else Follows info delta

lemma said_reads (info : Info) (hf : info.Fresh) (hfirst : info.sendResponseCount = 1 → info.lastMessagesType = .none)
    (h : Allowed info delta) :
    Reads info.reader (said delta info).1 (said delta info).2.reader ∧ (said delta info).2.Fresh := by
  unfold Allowed at h
  unfold said
  split_ifs at h ⊢ with hcount
  · have hlast := hfirst hcount
    obtain ⟨htoo,hfresh,htype⟩ := firstToolCall_reads delta.toolCalls hlast (hf hlast)
    have hopen : Says delta → (firstToolCall info delta.toolCalls).2.lastMessagesType = .none := by
      intro hspe
      rw [htype,if_pos (by_contra fun hne => h hne hspe)]
    obtain ⟨hcon,hfresh'⟩ := firstContent_reads hfresh hopen
    exact ⟨htoo.append hcon,hfresh'⟩
  · exact laterContent_reads info hf h

lemma said_said (info : Info) (h : Speaks delta ∨ info.lastMessagesType ≠ .none) :
    (said delta info).2.lastMessagesType ≠ .none := by
  unfold said
  split_ifs
  · rcases h with (h | h) | h
    · exact firstContent_said (.inr (firstToolCall_said (.inl h)))
    · exact firstContent_said (.inl h)
    · exact firstContent_said (.inr (firstToolCall_said (.inr h)))
  · exact laterContent_said info h

lemma said_silent (h : ¬Speaks delta) (info : Info) : said delta info = ([],info) := by
  simp only [Speaks,Says,not_or,not_not] at h
  simp [said,firstSaid,firstToolCall,firstContent,laterContent,h]

lemma ending_reads (hd : info.done = false) (hr : info.finishReason = "") (hf : info.Fresh)
    (hsaid : chunk.doneReason.isSome → info.lastMessagesType ≠ .none) :
    ∃ r, Reads info.reader (ending chunk info).1 r ∧ Tracks (ending chunk info).2 r := by
  unfold ending
  split
  · exact ⟨_,Reads.nil _,by simp [Tracks,hd,hr,hf]⟩
  · next reason hreason =>
    have hstop : info.reader.read (.contentBlockStop info.index) = some ⟨none,info.index+1,false⟩ := by
      simp [reader_said (hsaid (by simp [hreason])),Reader.read]
    simp only [finishEvents,claudeTerminalEvents]
    split
    · exact ⟨_,Reads.cons hstop (Reads.nil _),by simp [Tracks,hd,doneReason_ne_empty hreason]⟩
    · exact ⟨_,Reads.cons hstop (terminal_reads rfl _ _),by simp [Tracks]⟩

theorem Shaped.soFar (h : Shaped s) (f : Feed) : (s.info.sendResponseCount = 0 → s.info.lastMessagesType = .none ∧
      s.info.finishReason = "") ∧ ∃ id model tokens rest r,
    s.sent++begun f.chunk (s.info.entering f) = .messageStart id model tokens::rest ∧ Reads {} rest r ∧ Tracks s.info r := by
  unfold Shaped at h
  split_ifs at h with hcount
  · obtain ⟨hsent,hd,hr,hl,hi⟩ := h
    refine ⟨fun _ => ⟨hl,hr⟩,f.chunk.id,f.chunk.model,s.info.estimatePromptTokens,[],{},?_,Reads.nil _,?_⟩
    · simp [hsent,begun,entering,hcount]
    · simp [Tracks,hd,hr,reader,hl,Info.Fresh,hi]
  · obtain ⟨id,model,tokens,rest,r,hsent,hrea,htracks⟩ := h
    exact ⟨fun h => absurd h hcount,id,model,tokens,rest,r,by simp [hsent,begun,entering,hcount],hrea,htracks⟩

lemma orderly_iff (hd : s.info.done = false) (hr : s.info.finishReason = "")
    (hl : s.info.sendResponseCount = 0 → s.info.lastMessagesType = .none) (f : Feed) :
    Orderly s f ↔ Allowed (s.info.entering f) f.chunk.delta ∧
      (f.chunk.doneReason.isSome → Speaks f.chunk.delta ∨ s.info.lastMessagesType ≠ .none) := by
  by_cases hcount : s.info.sendResponseCount = 0
  · simp [Orderly,Allowed,entering,hd,hcount,hl hcount]
  · simp [Orderly,Allowed,entering,hd,hr,hcount,Follows]

lemma orderly_finished (hd : s.info.done = false) (hr : s.info.finishReason ≠ "") (hcount : s.info.sendResponseCount ≠ 0)
    (f : Feed) : Orderly s f ↔ ¬Speaks f.chunk.delta ∧ f.chunk.doneReason = none := by
  simp [Orderly,hd,hr,hcount]

lemma Shaped.step (h : Shaped s) (hG : Orderly s f) : Shaped (step s f) := by
  have hcount' : (ClaudeStream.step s f).info.sendResponseCount ≠ 0 := by rw [step_count]; exact Nat.succ_ne_zero _
  rw [Shaped,if_neg hcount']
  cases hd : s.info.done with
  | true =>
    rw [step_of_done hd]
    unfold Shaped at h
    split_ifs at h
    · simp [hd] at h
    · obtain ⟨id,model,tokens,rest,r,hsent,hrea,htracks⟩ := h
      refine ⟨id,model,tokens,rest,r,hsent,hrea,?_⟩
      simpa [Tracks,entering,hd] using htracks
  | false =>
    obtain ⟨hfirst,id,model,tokens,rest,r,hsent,hrea,htracks⟩ := h.soFar f
    rw [step_eq hd]
    by_cases hr : s.info.finishReason = ""
    · obtain ⟨hallowed,hfinish⟩ := (orderly_iff hd hr (fun h => (hfirst h).1) f).mp hG
      obtain ⟨rfl,hfresh⟩ : r = s.info.reader ∧ s.info.Fresh := by simpa [Tracks,hd,hr] using htracks
      have hwit := said_within f.chunk.delta (s.info.entering f)
      obtain ⟨hread,hfresh'⟩ := said_reads (s.info.entering f) hfresh (fun h => (hfirst (Nat.succ.inj h)).1) hallowed
      obtain ⟨r',hend,htracks'⟩ := ending_reads (hwit.done.trans hd) (hwit.finishReason.trans hr) hfresh'
        fun hsome => said_said _ (hfinish hsome)
      refine ⟨id,model,tokens,_,r',?_,hrea.append (hread.append hend),htracks'⟩
      simp [Stream.send,← List.append_assoc,hsent]
    · -- after a finish reason the chunk adds nothing
      obtain ⟨hsil,hnone⟩ := (orderly_finished hd hr (fun h => hr (hfirst h).2) f).mp hG
      simp only [said_silent hsil,ending,hnone,Stream.send]
      exact ⟨id,model,tokens,rest,r,by simp [hsent],hrea,htracks⟩

/-! A message in which something was said has a block to close. -/

def Busy (s : Stream) : Prop := s.info.done = true ∨ s.info.lastMessagesType ≠ .none

lemma busy_step (h : Busy s ∨ Speaks f.chunk.delta) : Busy (step s f) := by
  cases hd : s.info.done with
  | true => exact .inl (by simpa [step_of_done hd,entering] using hd)
  | false =>
    have hsaid : Speaks f.chunk.delta ∨ (s.info.entering f).lastMessagesType ≠ .none := by
      rcases h with (h | h) | h
      · rw [hd] at h
        cases h
      · exact .inr h
      · exact .inl h
    refine .inr ?_
    simp only [step_eq hd,Stream.send,ending_info]
    exact said_said _ hsaid

lemma busy_run (h : ∃ f ∈ feeds, Speaks f.chunk.delta) : Busy (run step s feeds) := by
  obtain ⟨f,hf,hspe⟩ := h
  obtain ⟨before,after,rfl⟩ := List.append_of_mem hf
  rw [run_append]
  exact run_stable (fun _ _ h => busy_step (.inl h)) after (busy_step (.inr hspe))

lemma wellFormed_of_reads {id model : String}
    (h : Reads {} rest r) (hclosed : r.openBlock = none) : WellFormed (.messageStart id model tokens::rest) := by
  unfold Reads at h
  simp [WellFormed,h,hclosed]

lemma Shaped.close (h : Shaped s) (hbusy : Busy s) : WellFormed (close s).sent := by
  unfold Shaped at h
  split_ifs at h with hcount
  · obtain ⟨_,hd,_,hl,_⟩ := h
    simp [Busy,hd,hl] at hbusy
  · obtain ⟨id,model,tokens,rest,r,hsent,hrea,htracks⟩ := h
    unfold Tracks at htracks
    split_ifs at htracks with hd hr
    · have hsame : (ClaudeStream.close s).sent = s.sent := by simp [ClaudeStream.close,closeClaudeStream,hd,Stream.send]
      rw [hsame,hsent]
      exact wellFormed_of_reads hrea htracks
    · have hpair := terminal_reads htracks.1 (stopReasonOpenAI2Claude s.info.finishReason)
        (claudeTerminalUsage (s.info.usage.getD {}))
      have hclo : (ClaudeStream.close s).sent = .messageStart id model tokens::(rest++
          [.messageDelta (stopReasonOpenAI2Claude s.info.finishReason) (claudeTerminalUsage (s.info.usage.getD {})),
            .messageStop]) := by
        simp [ClaudeStream.close,closeClaudeStream,hd,hr,Stream.send,hsent,claudeTerminalEvents]
      rw [hclo]
      exact wellFormed_of_reads (hrea.append hpair) htracks.1
    · have hsaid := hbusy.resolve_left hd
      have hreason : s.info.finishReason = "" := not_not.mp hr
      obtain ⟨rfl,_⟩ := htracks
      rw [reader_said hsaid] at hrea
      have hpair := terminal_reads (r:=⟨none,s.info.index+1,false⟩) rfl (stopReasonOpenAI2Claude "stop")
        (claudeTerminalUsage (s.info.usage.getD {}))
      have hclo : (ClaudeStream.close s).sent = .messageStart id model tokens::(rest++
          .contentBlockStop s.info.index::
            [.messageDelta (stopReasonOpenAI2Claude "stop") (claudeTerminalUsage (s.info.usage.getD {})),
              .messageStop]) := by
        have hvalue : s.info.lastMessagesType.value ≠ "" := by cases s.info.lastMessagesType <;> decide
        simp [ClaudeStream.close,closeClaudeStream,hd,hreason,hvalue,Stream.send,hsent,claudeTerminalEvents]
      rw [hclo]
      exact wellFormed_of_reads (hrea.append (Reads.cons (by simp [Reader.read]) hpair)) rfl

lemma shaped_open (est : Int64) : Shaped (.open est) := by
  simp [Shaped,Stream.open]

theorem orderly_stream_well_formed (est : Int64)
    (hspe : ∃ f ∈ feeds, Speaks f.chunk.delta) (h : Along step Orderly (.open est) feeds) :
    WellFormed (close (converted est feeds)).sent := by
  have hsha := run_invariant (fun _ _ h hG => h.step hG) (shaped_open est) h
  exact hsha.close (busy_run hspe)

end LurusHub.ClaudeStream
