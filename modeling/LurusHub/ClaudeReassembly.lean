import LurusHub.ClaudeUpstream
import LurusHub.Fragments
import LurusHub.IndexedDeltas

/-! What an OpenAI-wire client makes of a Claude stream: it appends contents and merges tool-call
deltas by index. The relay derives the index from the block's alone, so the first two blocks share
one. -/
namespace LurusHub.ClaudeUpstream
open Pricing StreamChunk Fragments IndexedDeltas Function ChoiceDelta

structure Call where
  (id name arguments : String)
  deriving DecidableEq

structure Client where
  content : String := ""
  calls : List (ℤ × Call) := []
  deriving DecidableEq

/-- The first delta of an index opens a call, a later one adds to its arguments. -/
def callMerge : Merge Call Call where
  start := id
  extend := fun c d => { c with arguments := c.arguments++d.arguments }

@[simp] lemma callMerge_start : callMerge.start call = call := rfl

def mergeCall (i : ℤ) (call : Call) (calls : List (ℤ × Call)) : List (ℤ × Call) := mergeAt callMerge i call calls

def mergeDelta (calls : List (ℤ × Call)) (t : ToolCallResponse) : List (ℤ × Call) :=
  mergeCall (t.index.getD 0) ⟨t.id,t.name,t.arguments⟩ calls

def Client.feed (c : Client) : Frame → Client
  | .chunk (some chunk) =>
    ⟨c.content++chunk.delta.getContentString,chunk.delta.toolCalls.foldl mergeDelta c.calls⟩
  | _ => c

def reassemble (frames : List Frame) : Client := frames.foldl Client.feed {}

/-! A stream of the upstream, by its content blocks. -/

inductive ThinkingPart
  | thought (thinking : String)
  | signature
  deriving DecidableEq

inductive Block
  | text (start : Option String) (deltas : List String)
  | thinking (deltas : List ThinkingPart)
  | toolUse (id name : String) (deltas : List String)
  deriving DecidableEq

def Block.start : Block → ContentBlock
  | .text start _ => { type := .text, text := start }
  | .thinking _ => { type := .thinking }
  | .toolUse id name _ => { type := .toolUse, id := id, name := name }

def ThinkingPart.delta : ThinkingPart → Delta
  | .thought thinking => { type := .thinkingDelta, thinking := some thinking }
  | .signature => { type := .signatureDelta }

def Block.deltas : Block → List Delta
  | .text _ deltas => deltas.map fun text => { type := .textDelta, text := some text }
  | .thinking deltas => deltas.map ThinkingPart.delta
  | .toolUse _ _ deltas => deltas.map fun partialJson => { type := .inputJsonDelta, partialJson := some partialJson }

def opened (index : ℕ) (block : ContentBlock) : ClaudeResponse :=
  { type := .contentBlockStart, index := some index, contentBlock := some block }

def continued (index : ℕ) (delta : Delta) : ClaudeResponse :=
  { type := .contentBlockDelta, index := some index, delta := some delta }

def closed (index : ℕ) : ClaudeResponse := { type := .contentBlockStop, index := some index }

def Block.events (index : ℕ) (block : Block) : List ClaudeResponse :=
  opened index block.start::block.deltas.map (continued index)++[closed index]

def blocksEvents : ℕ → List Block → List ClaudeResponse
  | _,[] => []
  | index,block::blocks => block.events index++blocksEvents (index+1) blocks

structure Stream where
  id : String := ""
  model : String := ""
  usage : ClaudeUsage := {}
  blocks : List Block
  stopReason : Option String := none
  finalUsage : Option ClaudeUsage := none
  deriving DecidableEq

def Stream.events (s : Stream) : List ClaudeResponse :=
  { type := .messageStart, message := some { id := s.id, model := s.model, usage := some s.usage } }::
    blocksEvents 0 s.blocks++
    [{ type := .messageDelta, delta := some { stopReason := s.stopReason }, usage := s.finalUsage },
      { type := .messageStop }]

def Block.content : Block → String
  | .text start deltas => start.getD ""++concat deltas
  | _ => ""

def Block.call : Block → Option Call
  | .toolUse id name deltas => some ⟨id,name,concat deltas⟩
  | _ => none

lemma mergeCall_merge (id : String) : mergeCall i ⟨id,name,arguments⟩ (mergeCall i call calls) =
      mergeCall i { call with arguments := call.arguments++arguments } calls := by
  apply mergeAt_mergeAt
  · rfl
  · intro c
    simp [callMerge,String.append_assoc]

/-- Whatever the relay has seen before, the events change a client's view in this way. -/
def Conveys (events : List ClaudeResponse) (f : Client → Client) : Prop :=
  ∀ h, ∃ h' frames, handleEvents .openAI .message h events = .ok (h',frames) ∧ ∀ c, frames.foldl Client.feed c = f c

lemma conveys_nil : Conveys [] id := fun h => ⟨h,[],rfl,fun _ => rfl⟩

lemma conveys_single
    (hr : ∀ h, ∃ h' frames, handleStreamResponseData .openAI .message h r = .ok (h',frames) ∧
      ∀ c, frames.foldl Client.feed c = f c) : Conveys [r] f := by
  intro h
  obtain ⟨h',frames,hhan,hfeed⟩ := hr h
  exact ⟨h',frames,by simp [handleEvents,hhan,bind,Except.bind,pure,Except.pure],hfeed⟩

lemma Conveys.append (heve : Conveys events f) (heve' : Conveys events' g) :
    Conveys (events++events') (g ∘ f) := by
  intro h
  obtain ⟨h₁,frames,hhead,hfeed⟩ := heve h
  obtain ⟨h₂,rest,htail,hfeed'⟩ := heve' h₁
  refine ⟨h₂,frames++rest,handleEvents_append hhead htail,fun c => ?_⟩
  rw [List.foldl_append,hfeed,hfeed',comp_apply]

def say (text : String) (c : Client) : Client := { c with content := c.content++text }

def invoke (i : ℤ) (call : Call) (c : Client) : Client := { c with calls := mergeCall i call c.calls }

lemma say_comp : say text' ∘ say text = say (text++text') := by
  funext c
  simp [say,String.append_assoc]

lemma say_empty : say "" = id := by
  funext c
  simp [say]

lemma invoke_comp :
    invoke i ⟨"","",arguments⟩ ∘ invoke i call = invoke i { call with arguments := call.arguments++arguments } := by
  funext c
  simp [invoke,mergeCall_merge]

section
variable (index : ℕ)

lemma conveys_opened_text (text : Option String) :
    Conveys [opened index { type := .text, text := text }] (say (text.getD "")) := by
  apply conveys_single
  intro h
  exact ⟨_,_,rfl,fun c => rfl⟩

lemma conveys_textDeltas (deltas : List String) :
    Conveys ((deltas.map fun text => { type := .textDelta, text := some text }).map (continued index))
      (say (concat deltas)) := by
  induction deltas with
  | nil =>
    rw [concat_nil,say_empty]
    exact conveys_nil
  | cons text deltas ih =>
    have hhead : Conveys [continued index { type := .textDelta, text := some text }] (say text) := by
      apply conveys_single
      intro h
      exact ⟨_,_,rfl,fun c => rfl⟩
    rw [concat_cons,← say_comp]
    exact hhead.append ih

lemma conveys_opened_thinking : Conveys [opened index { type := .thinking }] id := by
  rw [← say_empty]
  apply conveys_single
  intro h
  exact ⟨_,_,rfl,fun c => rfl⟩

lemma conveys_thinkingDeltas (deltas : List ThinkingPart) :
    Conveys ((deltas.map ThinkingPart.delta).map (continued index)) id := by
  induction deltas with
  | nil => exact conveys_nil
  | cons part deltas ih =>
    have hhead : Conveys [continued index part.delta] (say "") := by
      apply conveys_single
      intro h
      cases part with
      | thought thinking | signature => exact ⟨_,_,rfl,fun c => rfl⟩
    rw [say_empty] at hhead
    exact hhead.append ih

lemma conveys_opened_toolUse (id name : String) :
    Conveys [opened index { type := .toolUse, id := id, name := name }] (invoke (fcIdx (some index)) ⟨id,name,""⟩) := by
  apply conveys_single
  intro h
  refine ⟨_,_,rfl,fun c => ?_⟩
  simp [Client.feed,invoke,blockStartChunk,chunkOf,ChatCompletionsStreamResponse.delta,getContentString,
    toolCalls,mergeDelta,opened]

lemma conveys_inputJsonDelta (partialJson : String) :
    Conveys [continued index { type := .inputJsonDelta, partialJson := some partialJson }]
      (invoke (fcIdx (some index)) ⟨"","",partialJson⟩) := by
  apply conveys_single
  intro h
  refine ⟨_,_,rfl,fun c => ?_⟩
  simp [Client.feed,invoke,chunkOf,ChatCompletionsStreamResponse.delta,getContentString,
    toolCalls,mergeDelta,continued]

lemma Conveys.arguments (h : Conveys events (invoke (fcIdx (some index)) call)) (deltas : List String) :
    Conveys (events++(deltas.map fun partialJson =>
        { type := .inputJsonDelta, partialJson := some partialJson }).map (continued index))
      (invoke (fcIdx (some index)) { call with arguments := call.arguments++concat deltas }) := by
  induction deltas generalizing events call with
  | nil => simpa using h
  | cons partialJson deltas ih =>
    have hhead := h.append (conveys_inputJsonDelta index partialJson)
    rw [invoke_comp] at hhead
    have hrest := ih hhead
    simpa [String.append_assoc] using hrest

lemma conveys_closed : Conveys [closed index] id := by
  apply conveys_single
  intro h
  exact ⟨_,_,rfl,fun c => rfl⟩

def Block.effect (index : ℕ) : Block → Client → Client
  | .text start deltas => say (start.getD ""++concat deltas)
  | .thinking _ => id
  | .toolUse id name deltas => invoke (fcIdx (some index)) ⟨id,name,concat deltas⟩

lemma conveys_block (block : Block) : Conveys (block.events index) (block.effect index) := by
  cases block with
  | text start deltas =>
    have hblo := (conveys_opened_text index start).append (conveys_textDeltas index deltas)
    rw [say_comp] at hblo
    exact hblo.append (conveys_closed index)
  | thinking deltas => exact ((conveys_opened_thinking index).append
      (conveys_thinkingDeltas index deltas)).append (conveys_closed index)
  | toolUse id name deltas =>
    have hblo := (conveys_opened_toolUse index id name).arguments index deltas
    exact hblo.append (conveys_closed index)

def blocksEffect : ℕ → List Block → Client → Client
  | _,[] => id
  | index,block::blocks => blocksEffect (index+1) blocks ∘ block.effect index

lemma conveys_blocks (blocks : List Block) : Conveys (blocksEvents index blocks) (blocksEffect index blocks) := by
  induction blocks generalizing index with
  | nil => exact conveys_nil
  | cons block blocks ih => exact (conveys_block index block).append (ih (index+1))

end

lemma conveys_stream (s : Stream) : Conveys s.events (blocksEffect 0 s.blocks) := by
  have hstart : Conveys [{ type := .messageStart, message := some { id := s.id, model := s.model, usage := some s.usage } }]
      (say "") := by
    apply conveys_single
    intro h
    exact ⟨_,_,rfl,fun c => rfl⟩
  have hdelta : Conveys [{ type := .messageDelta, delta := some { stopReason := s.stopReason }, usage := s.finalUsage }]
      (say "") := by
    apply conveys_single
    intro h
    cases hu : s.finalUsage with
    | none | some u => exact ⟨_,_,rfl,fun c => rfl⟩
  have hstop : Conveys [{ type := .messageStop }] id := by
    apply conveys_single
    intro h
    exact ⟨_,_,rfl,fun c => rfl⟩
  rw [say_empty] at hstart hdelta
  exact (hstart.append (conveys_blocks 0 s.blocks)).append (hdelta.append hstop)

lemma blocksEffect_content (index : ℕ) (blocks : List Block) (c : Client) :
    (blocksEffect index blocks c).content = c.content++concat (blocks.map Block.content) := by
  induction blocks generalizing index c with
  | nil => simp [blocksEffect]
  | cons block blocks ih =>
    rw [blocksEffect,comp_apply,ih]
    cases block <;> simp [Block.effect,Block.content,say,invoke,String.append_assoc]

lemma effect_calls (index : ℕ) (block : Block) (c : Client) :
    (block.effect index c).calls = block.call.elim c.calls fun call => mergeCall (fcIdx (some index)) call c.calls := by
  cases block <;> rfl

lemma fcIdx_succ : fcIdx (some ((n+1 : ℕ) : ℤ)) = n := by
  simp only [fcIdx]
  split <;> omega

lemma blocksEffect_calls {n : ℕ} {c : Client} (h : ∀ p ∈ c.calls, p.1 < n) (blocks : List Block) :
    (blocksEffect (n+1) blocks c).calls.map Prod.snd = c.calls.map Prod.snd++blocks.filterMap Block.call := by
  induction blocks generalizing n c with
  | nil => simp [blocksEffect]
  | cons block blocks ih =>
    have hcalls := effect_calls (n+1) block c
    rw [fcIdx_succ] at hcalls
    rw [blocksEffect,comp_apply]
    cases hcall : block.call with
    | none =>
      rw [hcall,Option.elim_none] at hcalls
      have hkeys : ∀ p ∈ (block.effect (n+1) c).calls, p.1 < (n+1 : ℕ) := by
        rw [hcalls]
        intro p hp
        have hlt := h p hp
        omega
      rw [ih hkeys,hcalls,List.filterMap_cons_none hcall]
    | some call =>
      rw [hcall,Option.elim_some,show mergeCall n call c.calls = _ from mergeAt_new call fun p hp => (h p hp).ne] at hcalls
      have hkeys : ∀ p ∈ (block.effect (n+1) c).calls, p.1 < (n+1 : ℕ) := by
        rw [hcalls]
        exact List.forall_mem_append.mpr ⟨fun p hp => (h p hp).trans (by simp),List.forall_mem_singleton.mpr (by simp)⟩
      rw [ih hkeys,hcalls,List.filterMap_cons_some hcall]
      simp

def toolAt (blocks : List Block) (i : ℕ) : Bool := (blocks[i]?.bind Block.call).isSome

theorem calls_eq_iff : (blocksEffect 0 blocks {}).calls.map Prod.snd = blocks.filterMap Block.call ↔
      ¬(toolAt blocks 0 ∧ toolAt blocks 1) := by
  cases blocks with
  | nil => simp [blocksEffect,toolAt]
  | cons first blocks =>
    have hfirst := effect_calls 0 first {}
    rw [blocksEffect,comp_apply]
    cases hcall : first.call with
    | none =>
      rw [hcall] at hfirst
      rw [blocksEffect_calls (by simp [hfirst]),hfirst]
      simp [toolAt,hcall]
    | some call =>
      rw [hcall,Option.elim_some] at hfirst
      cases blocks with
      | nil => simp [blocksEffect,toolAt,hfirst,hcall,mergeCall]
      | cons second blocks =>
        -- both blocks have index 0
        have hsec := effect_calls 1 second (first.effect 0 {})
        rw [hfirst] at hsec
        rw [blocksEffect,comp_apply]
        cases hcall' : second.call with
        | none =>
          rw [hcall'] at hsec
          rw [blocksEffect_calls (by simp [hsec,mergeCall,fcIdx]),hsec]
          simp [toolAt,hcall,hcall',mergeCall]
        | some call' =>
          rw [hcall'] at hsec
          have hlen := congrArg List.length (blocksEffect_calls (n:=1) (c:=second.effect 1 (first.effect 0 {}))
            (by simp [hsec,mergeCall,mergeAt,fcIdx]) blocks)
          simp only [hsec,mergeCall,mergeAt,fcIdx,List.length_append,List.length_map] at hlen
          refine iff_of_false (fun heq => ?_) (by simp [toolAt,hcall,hcall'])
          have heq := congrArg List.length heq
          simp [hcall,hcall',hlen] at heq
          omega

def received (h : Handler) (s : Stream) : Option (String × List Call) :=
  (handleEvents .openAI .message h s.events).toOption.map fun out =>
    ((reassemble out.2).content,(reassemble out.2).calls.map Prod.snd)

/-- The client gets everything exactly when the first two blocks are not both tool calls. -/
theorem received_iff (h : Handler) (s : Stream) :
    received h s = some (concat (s.blocks.map Block.content),s.blocks.filterMap Block.call) ↔
      ¬(toolAt s.blocks 0 ∧ toolAt s.blocks 1) := by
  obtain ⟨h',frames,hhan,hfeed⟩ := conveys_stream s h
  have hcon := blocksEffect_content 0 s.blocks {}
  simp only [String.empty_append] at hcon
  rw [← calls_eq_iff,received,hhan]
  simp [Except.toOption,reassemble,hfeed,hcon]

theorem received_two_tools : received {} { blocks := [.toolUse "a" "f" ["\x7b\x7d"],.toolUse "b" "g" ["\x7b\x7d"]] } ≠
    some ("",[⟨"a","f","\x7b\x7d"⟩,⟨"b","g","\x7b\x7d"⟩]) := by
  decide +kernel

end LurusHub.ClaudeUpstream
