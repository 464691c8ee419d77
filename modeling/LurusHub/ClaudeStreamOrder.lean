import LurusHub.ClaudeStreamBlocks

/-! Chunks that come out of order: a reader meets an event out of place and never recovers, so on
the OpenAI wire the order of the chunks decides whether the client reads a message. -/
namespace LurusHub.ClaudeStream
open Pricing StreamChunk Transition Reads Option List

def Jams (r : Reader) (events : List ClaudeResponse) : Prop := events.foldlM Reader.read r = none

variable {r : Reader} {info : Info}

lemma Jams.here (h : r.read e = none) (events : List ClaudeResponse) : Jams r (e::events) := by
  rw [Jams,foldlM_cons,h]
  rfl

lemma Jams.append (h : Jams r a) (b : List ClaudeResponse) : Jams r (a++b) := by
  rw [Jams,foldlM_append,h]
  rfl

lemma Reads.jams (ha : Reads r a r') (hb : Jams r' b) : Jams r (a++b) := by
  rw [Jams,foldlM_append,ha]
  exact hb

lemma read_start_of_open (h : info.lastMessagesType ≠ .none) :
    info.reader.read (.contentBlockStart index block) = none := by
  simp [reader_said h,Reader.read]

lemma read_stop_of_closed (h : r.openBlock = none) (index : ℤ) :
    r.read (.contentBlockStop index) = none := by
  simp [Reader.read,h]

lemma reader_openBlock_none (h : info.lastMessagesType = .none) : info.reader.openBlock = none := by
  simp [Info.reader,h]

/-- Tool calls as the wire sends them: each fragment has its index, and a name or arguments. -/
def WireCalls (toolCalls : List ToolCallResponse) : Prop :=
  ∀ c ∈ toolCalls, c.index.isSome ∧ (c.name ≠ "" ∨ c.arguments ≠ "")

lemma convertToolCalls_fragment (hblo : blockIndex info several i c = k) (hname : c.name = "") (hargs : c.arguments ≠ "") :
    (convertToolCalls several i (c::cs) info).1 =
      .contentBlockDelta k (.inputJsonDelta c.arguments)::(convertToolCalls several (i+1) cs { info with index := k }).1 := by
  simp [convertToolCalls,hname,hblo,hargs]

lemma convertToolCalls_named (hblo : blockIndex info several i c = k) (hname : c.name ≠ "") :
    (convertToolCalls several i (c::cs) info).1 = .contentBlockStart k (.toolUse c.id c.name)::
        ((if c.arguments ≠ "" then [.contentBlockDelta k (.inputJsonDelta c.arguments)] else [])++
          (convertToolCalls several (i+1) cs { info with index := k }).1) := by
  simp [convertToolCalls,hname,hblo]

lemma convertToolCalls_jams (several : Bool) (i : ℕ)
    (hsaid : info.lastMessagesType ≠ .none) (hwire : WireCalls toolCalls) (h : ¬Continues info.index toolCalls) :
    Jams info.reader (convertToolCalls several i toolCalls info).1 := by
  induction toolCalls generalizing i with
  | nil => exact absurd (nofun) h
  | cons c cs ih =>
    obtain ⟨hindex,hsome⟩ := hwire c mem_cons_self
    obtain ⟨k,hk⟩ := isSome_iff_exists.mp hindex
    have hblo : blockIndex info several i c = k := by simp [blockIndex,hk]
    by_cases hname : c.name = ""
    · have hargs : c.arguments ≠ "" := hsome.resolve_left (not_not.mpr hname)
      rw [convertToolCalls_fragment hblo hname hargs]
      by_cases hopen : k = info.index
      · subst hopen
        have hrest : ¬Continues info.index cs := fun hcs => h (forall_mem_cons.mpr ⟨⟨hname,hk⟩,hcs⟩)
        exact jams (cons (read_delta hsaid _) (nil _))
          (ih (i+1) (fun c hc => hwire c (mem_cons_of_mem _ hc)) hrest)
      · exact Jams.here (by simp [reader_said hsaid,Reader.read,Ne.symm hopen]) _
    · rw [convertToolCalls_named hblo hname]
      exact Jams.here (read_start_of_open hsaid) _

lemma convertToolCalls_not_opens (several : Bool)
    (hsaid : info.lastMessagesType ≠ .none) (hwire : WireCalls toolCalls) (hne : toolCalls ≠ [])
    (h : ¬Opens info.index toolCalls) :
    Jams ⟨none,info.index,false⟩ (convertToolCalls several 0 toolCalls info).1 := by
  cases toolCalls with
  | nil => exact absurd rfl hne
  | cons c cs =>
    obtain ⟨hindex,hsome⟩ := hwire c mem_cons_self
    obtain ⟨k,hk⟩ := isSome_iff_exists.mp hindex
    have hblo : blockIndex info several 0 c = k := by simp [blockIndex,hk]
    by_cases hname : c.name = ""
    · have hargs : c.arguments ≠ "" := hsome.resolve_left (not_not.mpr hname)
      rw [convertToolCalls_fragment hblo hname hargs]
      exact Jams.here (by simp [Reader.read]) _
    · rw [convertToolCalls_named hblo hname]
      by_cases hnext : k = info.index
      · subst hnext
        have hrest : ¬Continues info.index cs :=
          fun hcs => h ⟨hname,fun j hj => some.inj (hj.symm.trans hk),hcs⟩
        have hstart : Reader.read ⟨none,info.index,false⟩ (.contentBlockStart info.index (.toolUse c.id c.name)) =
            some info.reader := by simp [Reader.read,reader_said hsaid]
        have hjam := convertToolCalls_jams several 1 hsaid (fun c hc => hwire c (mem_cons_of_mem _ hc)) hrest
        refine jams (cons hstart (nil _)) ?_
        split
        · exact jams (cons (read_delta hsaid _) (nil _)) hjam
        · exact hjam
      · exact Jams.here (by simp [Reader.read,hnext]) _

lemma laterToolCalls_jams (hwire : WireCalls toolCalls) (hne : toolCalls ≠ [])
    (h : ¬match info.lastMessagesType with
      | .none => False
      | .tools => Continues info.index toolCalls
      | .text | .thinking => Opens (info.index+1) toolCalls) :
    Jams info.reader (laterToolCalls toolCalls info).1 := by
  have hnew : info.lastMessagesType ≠ .none → info.lastMessagesType ≠ .tools → ¬Opens (info.index+1) toolCalls →
      Jams info.reader (laterToolCalls toolCalls info).1 := by
    intro hsaid hother hope
    have hjam := convertToolCalls_not_opens (decide (1 < toolCalls.length)) (show
      ({ info with index := info.index+1, lastMessagesType := .tools } : Info).lastMessagesType ≠ .none by simp)
      hwire hne hope
    rw [laterToolCalls,if_pos hother,reader_said hsaid]
    exact jams (cons (by simp [Reader.read]) (nil _)) hjam
  split at h
  · next ht =>
    rw [laterToolCalls,if_pos (by simp [ht])]
    exact Jams.here (read_stop_of_closed (reader_openBlock_none ht) _) _
  · next ht =>
    rw [laterToolCalls,if_neg (not_not.mpr ht)]
    exact convertToolCalls_jams _ 0 (by simp [ht]) hwire h
  · next ht => exact hnew (by simp [ht]) (by simp [ht]) h
  · next ht => exact hnew (by simp [ht]) (by simp [ht]) h

lemma laterContent_jams (info : Info) {delta : ChoiceDelta} (hwire : WireCalls delta.toolCalls)
    (h : ¬Follows info delta) : Jams info.reader (laterContent delta info).1 := by
  unfold Follows at h
  unfold laterContent
  split_ifs at h ⊢ with hcalls hrea
  · exact laterToolCalls_jams hwire hcalls h
  · simp only [hrea,not_false_eq_true,ne_eq,forall_const,not_or] at h
    simp only [laterThinking,ne_eq,h.2,not_false_eq_true,if_true]
    exact Jams.here (read_start_of_open h.1) _
  · exact absurd (fun hr => absurd hr hrea) h
  · exact absurd (fun hr => absurd hr hrea) h

lemma firstContent_jams (hsaid : info.lastMessagesType ≠ .none)
    (h : Says delta) : Jams info.reader (firstContent delta info).1 := by
  unfold firstContent
  split_ifs with h₁ h₂
  · exact Jams.here (read_start_of_open hsaid) _
  · exact Jams.here (read_start_of_open hsaid) _
  · exact absurd h (by simp [Says,h₁,h₂])

lemma said_jams (info : Info) (hfirst : info.sendResponseCount = 1 → info.lastMessagesType = .none) (hf : info.Fresh)
    (hwire : WireCalls delta.toolCalls) (h : ¬Allowed info delta) : Jams info.reader (said delta info).1 := by
  unfold Allowed at h
  unfold said
  split_ifs at h ⊢ with hcount
  · simp only [Classical.not_imp,not_not] at h
    have hlast := hfirst hcount
    obtain ⟨htoo,_,htype⟩ := firstToolCall_reads delta.toolCalls hlast (hf hlast)
    rw [if_neg h.1] at htype
    exact htoo.jams (firstContent_jams (by simp [htype]) h.2)
  · exact laterContent_jams info hwire h

theorem ending_jams (h : r.openBlock = none) (hdone : chunk.doneReason ≠ none) : Jams r (ending chunk info).1 := by
  unfold ending
  split
  · next hnone => exact absurd hnone hdone
  · exact Jams.here (read_stop_of_closed h _) _

/-! From the first chunk out of order to the end of the stream. -/

def Broken (s : Stream) : Prop := ∃ id model tokens rest, s.sent = .messageStart id model tokens::rest ∧ Jams {} rest

lemma Broken.send (h : Broken s) (r : List ClaudeResponse × Info) : Broken (s.send r) := by
  obtain ⟨id,model,tokens,rest,hsent,hjam⟩ := h
  exact ⟨id,model,tokens,rest++r.1,by simp [Stream.send,hsent],hjam.append r.1⟩

lemma Broken.not_wellFormed (h : Broken s) : ¬WellFormed s.sent := by
  obtain ⟨id,model,tokens,rest,hsent,hjam⟩ := h
  unfold Jams at hjam
  simp [hsent,WellFormed,hjam]

/-- A chunk of the OpenAI wire: tool calls as the wire has them, nothing said after the finish reason. -/
def Plain (s : Stream) (f : Feed) : Prop :=
  WireCalls f.chunk.delta.toolCalls ∧ (s.info.finishReason ≠ "" → ¬Speaks f.chunk.delta)

lemma Shaped.broken {f : Feed} (h : Shaped s) (hplain : Plain s f) (hG : ¬Orderly s f) :
    Broken (ClaudeStream.step s f) := by
  have hd : s.info.done = false := by simpa using (not_or.mp hG).1
  obtain ⟨hfirst,id,model,tokens,rest,r,hsent,hrea,htracks⟩ := h.soFar f
  rw [step_eq hd]
  suffices hjam : Jams r ((said f.chunk.delta (s.info.entering f)).1++
      (ending f.chunk (said f.chunk.delta (s.info.entering f)).2).1) from
    ⟨id,model,tokens,_,by simp [Stream.send,← append_assoc,hsent],hrea.jams hjam⟩
  by_cases hr : s.info.finishReason = ""
  · rw [orderly_iff hd hr (fun h => (hfirst h).1),not_and_or,Classical.not_imp,not_or,not_not] at hG
    obtain ⟨rfl,hfresh⟩ : r = s.info.reader ∧ s.info.Fresh := by simpa [Tracks,hd,hr] using htracks
    rcases hG with hG | ⟨hdone,hsil,hl⟩
    · exact (said_jams (s.info.entering f) (fun h => (hfirst (Nat.succ.inj h)).1) hfresh hplain.1 hG).append _
    · rw [said_silent hsil]
      exact ending_jams (reader_openBlock_none hl) (isSome_iff_ne_none.mp hdone)
  · rw [orderly_finished hd hr (fun h => hr (hfirst h).2)] at hG
    have hsil := hplain.2 hr
    rw [said_silent hsil]
    refine ending_jams ?_ fun hnone => hG ⟨hsil,hnone⟩
    simp only [Tracks,hd,hr,Bool.false_eq_true,if_false,ne_eq,not_false_eq_true,if_true] at htracks
    exact htracks.1

def Idle (s : Stream) : Prop := s.info.done = false ∧ s.info.finishReason = "" ∧ s.info.lastMessagesType = .none

lemma Idle.step {f : Feed} (h : Idle s) (hG : Orderly s f ∧ ¬Speaks f.chunk.delta) :
    Idle (step s f) := by
  obtain ⟨hd,hr,hl⟩ := h
  obtain ⟨hG,hsil⟩ := hG
  have hdone : f.chunk.doneReason = none := by
    by_contra hne
    have hsome := isSome_iff_ne_none.mpr hne
    rcases hG with hG | hG
    · rw [hd] at hG
      cases hG
    · split_ifs at hG with hcount hreason
      · exact hsil (hG.2 hsome)
      · exact hreason hr
      · exact (hG.2 hsome).elim hsil (fun hsaid => hsaid hl)
  simp only [step_eq hd,said_silent hsil,ending,hdone]
  exact ⟨hd,hr,hl⟩

theorem Idle.close (hs : Shaped s) (h : Idle s) : ¬WellFormed (close s).sent := by
  obtain ⟨hd,hr,hl⟩ := h
  obtain ⟨terminal,hclo⟩ : ∃ terminal, (ClaudeStream.close s).sent = s.sent++.contentBlockStop s.info.index::terminal := by
    refine ⟨(claudeTerminalEvents none
      { s.info with finishReason := "stop", usage := some (s.info.usage.getD {}) }).1,?_⟩
    simp [ClaudeStream.close,closeClaudeStream,Stream.send,hd,hr,hl,LastMessageType.value]
  rw [hclo]
  unfold Shaped at hs
  split_ifs at hs with hcount
  · simp [hs.1,WellFormed]
  · obtain ⟨id,model,tokens,rest,r,hsent,hrea,htracks⟩ := hs
    simp only [Tracks,hd,hr,Bool.false_eq_true,if_false,ne_eq,not_true_eq_false] at htracks
    obtain ⟨rfl,_⟩ := htracks
    have hjam := hrea.jams (Jams.here (read_stop_of_closed (reader_openBlock_none hl) s.info.index) terminal)
    exact Broken.not_wellFormed (s:=⟨s.info,_⟩) ⟨id,model,tokens,_,by rw [hsent]; rfl,hjam⟩

/-- Something is said, and every chunk comes where the converter expects it. -/
def InOrder (estimatePromptTokens : Int64) (feeds : List Feed) : Prop :=
  (∃ f ∈ feeds, Speaks f.chunk.delta) ∧ Along step Orderly (.open estimatePromptTokens) feeds
  deriving Decidable

/-- Chunks in order, and on the OpenAI wire no others, become a well-formed message. -/
theorem stream_well_formed_iff_in_order (estimatePromptTokens : Int64) (feeds : List Feed) :
    (InOrder estimatePromptTokens feeds → WellFormed (close (converted estimatePromptTokens feeds)).sent) ∧
      (Along step Plain (.open estimatePromptTokens) feeds →
        WellFormed (close (converted estimatePromptTokens feeds)).sent → InOrder estimatePromptTokens feeds) := by
  have hopen := shaped_open estimatePromptTokens
  refine ⟨fun h => orderly_stream_well_formed estimatePromptTokens h.1 h.2,fun hplain hwell => ?_⟩
  have hsound : ¬Broken (converted estimatePromptTokens feeds) := fun h => (h.send _).not_wellFormed hwell
  have horderly : Along step Orderly (.open estimatePromptTokens) feeds :=
    along_of_not_spoilt (fun _ _ h hG => h.step hG) (fun _ _ h hW hG => h.broken hW hG)
      (fun _ _ h => h.send _) hopen hplain hsound
  refine ⟨?_,horderly⟩
  by_contra hsil
  have hquiet : Along step (fun s f => Orderly s f ∧ ¬Speaks f.chunk.delta) (.open estimatePromptTokens) feeds := by
    rw [along_iff_trace] at horderly ⊢
    refine fun p hp => ⟨horderly p hp,fun hspe => hsil ⟨p.2,?_,hspe⟩⟩
    rw [← map_snd_trace step (.open estimatePromptTokens) feeds]
    exact mem_map_of_mem hp
  have hidle : Idle (converted estimatePromptTokens feeds) :=
    run_invariant (fun _ _ h hG => h.step hG) (by simp [Idle,Stream.open]) hquiet
  exact hidle.close (run_invariant (fun _ _ h hG => h.step hG) hopen horderly) hwell

theorem blocks_out_of_order :
    let said (delta : ChoiceDelta) : Feed := ⟨⟨"c","m",[{ delta }],none⟩,none⟩
    let role := said { content := some "" }
    let text := said { content := some "hi" }
    let thinking := said { reasoningContent := some "hm" }
    let call (index : ℤ) := said { sentToolCalls := some [⟨some index,"id","f",""⟩] }
    ¬WellFormed (close (converted 0 [text,call 0])).sent ∧ ¬WellFormed (close (converted 0 [call 0,call 1])).sent ∧
      ¬WellFormed (close (converted 0 [role,call 0])).sent ∧ ¬WellFormed (close (converted 0 [role])).sent ∧
      ¬WellFormed (close (converted 0 [text,thinking])).sent := by
  decide

theorem orderly_answer_well_formed :
    let said (delta : ChoiceDelta) : Feed := ⟨⟨"c","m",[{ delta }],none⟩,none⟩
    let finish : Feed := ⟨⟨"c","m",[{ finishReason := some "stop" }],some {}⟩,none⟩
    let feeds := [said { sentToolCalls := some [⟨some 0,"id","f","x"⟩] },said { sentToolCalls := some [⟨some 0,"","","y"⟩] },
      said { content := some "hi" },finish]
    InOrder 0 feeds ∧ WellFormed (close (converted 0 feeds)).sent := by
  intro said finish feeds
  have horder : InOrder 0 feeds := by decide
  exact ⟨horder,(stream_well_formed_iff_in_order 0 feeds).1 horder⟩

end LurusHub.ClaudeStream
