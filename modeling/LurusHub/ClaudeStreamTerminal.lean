import LurusHub.ClaudeStream

/-! How a converted stream ends. A finish chunk ends the message if some usage is known by then,
else it is remembered until the stream is closed. Once the message has ended, a later finish reason
is not looked at. -/
namespace LurusHub.ClaudeStream
open Pricing StreamChunk Transition Option ClaudeResponse

/-- The stop reason of a stream that ends in its only terminal pair. -/
def terminalPair (sent : List ClaudeResponse) : Option String :=
  match sent.reverse with
  | .messageStop::.messageDelta reason _::front => if front.any ClaudeResponse.isTerminal then none else some reason
  | _ => none

lemma terminalPair_eq_some :
    terminalPair sent = some reason ↔ ∃ front usage, sent = front++[.messageDelta reason usage,.messageStop] ∧
      ∀ e ∈ front, e.isTerminal = false := by
  unfold terminalPair
  constructor
  · intro h
    split at h
    · next r usage front hrev =>
      split at h
      · cases h
      · next hfro =>
        cases h
        refine ⟨front.reverse,usage,?_,?_⟩
        · rw [← List.reverse_reverse sent,hrev]
          simp
        · simpa using hfro
    · cases h
  · rintro ⟨front,usage,rfl,hfro⟩
    simpa using hfro

/-- The last finish reason up to the chunk that ends the message: the first one with a finish
reason for which a usage is known. -/
def lastFinish (usageKnown : Bool) : List Feed → Option String
  | [] => none
  | f::feeds =>
    let usageKnown := usageKnown || f.usage.isSome
    match f.chunk.doneReason with
    | none => lastFinish usageKnown feeds
    | some reason =>
      if usageKnown || f.chunk.usage.isSome then some reason
      else some ((lastFinish usageKnown feeds).getD reason)

/-- The message is open and nothing terminal was sent, or it has ended with its only pair. -/
def Ended (s : Stream) : Prop :=
  if s.info.done then terminalPair s.sent = some (stopReasonOpenAI2Claude s.info.finishReason)
  else ∀ e ∈ s.sent, e.isTerminal = false

lemma step_of_open (h : s.info.done = false) : ∃ events, (∀ e ∈ events, e.isTerminal = false) ∧
      (step s f).info.usage = f.usage.or s.info.usage ∧
      (step s f).info.finishReason = f.chunk.doneReason.getD s.info.finishReason ∧
      match f.chunk.doneReason,f.chunk.usage.or (f.usage.or s.info.usage) with
      | some reason,some usage => (step s f).info.done = true ∧
        (step s f).sent = s.sent++events++[.messageDelta (stopReasonOpenAI2Claude reason) (claudeTerminalUsage usage),
          .messageStop]
      | _,_ => (step s f).info.done = false ∧ (step s f).sent = s.sent++events := by
  have hwit := said_within f.chunk.delta (s.info.entering f)
  set r := said f.chunk.delta (s.info.entering f) with hr
  have husa : r.2.usage = f.usage.or s.info.usage := hwit.usage
  have hopen : ∀ e ∈ begun f.chunk (s.info.entering f)++r.1, e.isTerminal = false := by
    intro e he
    rcases List.mem_append.mp he with he | he
    · unfold begun at he
      split at he <;> simp_all [isTerminal]
    · exact not_terminal_of_block (hwit.blocks e he)
  rw [step_eq h,← hr]
  simp only [Stream.send,ending_info]
  cases hreason : f.chunk.doneReason with
  | none => exact ⟨_,hopen,husa,hwit.finishReason,by simp [ending,hreason,hwit.done.trans h]⟩
  | some reason =>
    refine ⟨begun f.chunk (s.info.entering f)++r.1++[.contentBlockStop r.2.index],?_,?_⟩
    · simpa [or_imp,forall_and,isTerminal] using hopen
    · simp only [ending,hreason,finishEvents,claudeTerminalEvents,husa]
      cases hu : f.chunk.usage.or (f.usage.or s.info.usage) <;> simp [hwit.done.trans h]

lemma Ended.step (h : Ended s) (f : Feed) : Ended (step s f) := by
  cases hd : s.info.done with
  | true => simpa [Ended,step_of_done hd,Info.entering] using h
  | false =>
    obtain ⟨events,heve,_,hreason,hcase⟩ := step_of_open hd
    simp only [Ended,hd] at h
    have hsent : ∀ e ∈ s.sent++events, e.isTerminal = false :=
      fun e he => (List.mem_append.mp he).elim (h e) (heve e)
    unfold Ended
    split at hcase
    · next reason usage hr _ =>
      rw [if_pos hcase.1,hreason,hr]
      exact terminalPair_eq_some.mpr ⟨_,_,hcase.2,hsent⟩
    · rw [if_neg (by simp [hcase.1]),hcase.2]
      exact hsent

lemma run_finishReason (h : s.info.done = false) : (run ClaudeStream.step s feeds).info.finishReason =
      (lastFinish s.info.usage.isSome feeds).getD s.info.finishReason := by
  have hdone : ∀ (fs : List Feed) (s : Stream), s.info.done →
      (run ClaudeStream.step s fs).info.finishReason = s.info.finishReason := by
    intro fs
    induction fs with
    | nil => exact fun _ _ => rfl
    | cons f fs ih =>
      intro s hs
      rw [run_cons,step_of_done hs]
      exact ih _ hs
  induction feeds generalizing s with
  | nil => rfl
  | cons f feeds ih =>
    obtain ⟨events,_,husa,hreason,hcase⟩ := step_of_open h
    have hkno : (s.info.usage.isSome || f.usage.isSome) = (f.usage.or s.info.usage).isSome := by
      cases f.usage <;> simp
    rw [run_cons]
    simp only [lastFinish,hkno]
    split at hcase
    · next reason usage hr hu =>
      have hany : ((f.usage.or s.info.usage).isSome || f.chunk.usage.isSome) := by
        rw [Bool.or_comm,← isSome_or,hu]; rfl
      rw [hdone feeds _ hcase.1,hreason,hr]
      simp only [hany,if_true]
    · next hnone =>
      rw [ih hcase.1,husa,hreason]
      cases hr : f.chunk.doneReason with
      | none => rfl
      | some reason =>
        have hu : f.chunk.usage.or (f.usage.or s.info.usage) = none := by
          cases hu : f.chunk.usage.or (f.usage.or s.info.usage) with
          | none => rfl
          | some usage => exact (hnone reason usage hr hu).elim
        have hany : ((f.usage.or s.info.usage).isSome || f.chunk.usage.isSome) = false := by
          rw [Bool.or_comm,← isSome_or,hu]; rfl
        simp only [hany,Bool.false_eq_true,if_false,getD_some]

lemma close_of_open (hd : s.info.done = false) (h : Ended s) :
    (close s).info.done ∧ terminalPair (close s).sent =
      some (stopReasonOpenAI2Claude (if s.info.finishReason = "" then "stop" else s.info.finishReason)) := by
  simp only [Ended,hd] at h
  refine ⟨by simp [close,Stream.send,closeClaudeStream,hd,claudeTerminalEvents],?_⟩
  rw [terminalPair_eq_some]
  refine ⟨s.sent++(if s.info.finishReason = "" && s.info.lastMessagesType.value ≠ "" then
    [.contentBlockStop s.info.index] else []),claudeTerminalUsage (s.info.usage.getD {}),?_,?_⟩
  · simp [close,Stream.send,closeClaudeStream,hd,claudeTerminalEvents]
  · intro e he
    rcases List.mem_append.mp he with he | he
    · exact h e he
    · split at he <;> simp_all [isTerminal]

lemma close_of_done (h : s.info.done) : close s = s := by
  simp [close,Stream.send,closeClaudeStream,h]

lemma lastFinish_ne_empty (h : lastFinish usageKnown feeds = some reason) : reason ≠ "" := by
  induction feeds generalizing usageKnown reason with
  | nil => cases h
  | cons f feeds ih =>
    simp only [lastFinish] at h
    split at h
    · exact ih h
    · next first hfirst =>
      have hne := doneReason_ne_empty hfirst
      split at h
      · exact some.inj h ▸ hne
      · cases h
        cases hrest : lastFinish (usageKnown || f.usage.isSome) feeds with
        | none => exact hne
        | some later => exact ih hrest

lemma lastFinish_of_done (h : s.info.done = false)
    (hd : (run ClaudeStream.step s feeds).info.done) : lastFinish s.info.usage.isSome feeds ≠ none := by
  induction feeds generalizing s with
  | nil => exact absurd hd (by simp [h])
  | cons f feeds ih =>
    obtain ⟨events,_,husa,_,hcase⟩ := step_of_open h
    have hkno : (s.info.usage.isSome || f.usage.isSome) = (f.usage.or s.info.usage).isSome := by
      cases f.usage <;> simp
    simp only [lastFinish,hkno]
    cases hr : f.chunk.doneReason with
    | none =>
      rw [hr] at hcase
      have hi := ih hcase.1 hd
      rwa [husa] at hi
    | some reason =>
      dsimp only
      split <;> simp

theorem closed_stream_has_one_terminal_pair (estimatePromptTokens : Int64) (feeds : List Feed) (n : ℕ) :
    terminalPair (close^[n+1] (converted estimatePromptTokens feeds)).sent =
      some (stopReasonOpenAI2Claude ((lastFinish false feeds).getD "stop")) := by
  set s := converted estimatePromptTokens feeds with hs
  have hended : Ended s := run_stable (fun _ f h => h.step f) feeds (by simp [Ended,Stream.open])
  have hreason : s.info.finishReason = (lastFinish false feeds).getD "" := run_finishReason rfl
  have hclosed : terminalPair (close s).sent =
      some (stopReasonOpenAI2Claude ((lastFinish false feeds).getD "stop")) ∧ (close s).info.done = true := by
    cases hfinish : lastFinish false feeds with
    | none =>
      rw [hfinish] at hreason
      have hopen : s.info.done = false := by
        by_contra hd
        exact lastFinish_of_done (s:=.open estimatePromptTokens) rfl (Bool.eq_true_of_not_eq_false hd) hfinish
      have hc := close_of_open hopen hended
      rw [hreason] at hc
      exact ⟨hc.2,hc.1⟩
    | some reason =>
      rw [hfinish] at hreason
      have hne : s.info.finishReason ≠ "" := hreason ▸ lastFinish_ne_empty hfinish
      cases hd : s.info.done with
      | true =>
        simp only [Ended,hd] at hended
        rw [close_of_done hd]
        exact ⟨hreason ▸ hended,hd⟩
      | false =>
        have hc := close_of_open hd hended
        rw [if_neg hne,hreason] at hc
        exact ⟨hc.2,hc.1⟩
  have hfix := Function.iterate_fixed (close_of_done hclosed.2) n
  rw [Function.iterate_succ_apply,hfix]
  exact hclosed.1

/-- The finish reason of the last chunk that has one. -/
def lastReason (feeds : List Feed) : Option String := (feeds.filterMap fun f => f.chunk.doneReason).getLast?

theorem later_finish_reason_not_carried :
    let finish (reason : String) (usage : Option Usage) : Feed :=
      ⟨⟨"c","m",[{ delta := { content := some "x" }, finishReason := some reason }],usage⟩,none⟩
    (terminalPair (close (converted 0 [finish "length" (some {}),finish "stop" none])).sent = some "max_tokens" ∧
      lastReason [finish "length" (some {}),finish "stop" none] = some "stop") ∧
      terminalPair (converted 0 [finish "stop" none]).sent = none := by
  decide

end LurusHub.ClaudeStream
