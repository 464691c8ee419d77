import LurusHub.GeminiUpstream

/-! Tool calls of a Gemini stream at an OpenAI-wire client, which merges the deltas by their index. -/
namespace LurusHub.GeminiUpstream

open IndexedDeltas List

structure Call where
  name : String
  arguments : List Json

/-- The name is that of the first delta with one, the arguments follow one another. -/
def toolMerge : Merge ToolCallResponse Call where
  start := fun d => ⟨d.name,d.arguments⟩
  extend := fun c d => ⟨if c.name = "" then d.name else c.name,c.arguments++d.arguments⟩

def toolDeltas (responses : List ChatCompletionsStreamResponse) : List ToolCallResponse :=
  responses.flatMap fun response => response.flatMap fun choice => choice.delta.toolCalls

def mergeDeltas (deltas : List ToolCallResponse) (calls : List (ℕ × Call)) : List (ℕ × Call) :=
  deltas.foldl (fun calls d => mergeAt toolMerge d.index d calls) calls

def received (responses : List ChatCompletionsStreamResponse) : List Call :=
  (mergeDeltas (toolDeltas responses) []).map Prod.snd

lemma mergeAt_index (calls : List (ℕ × Call)) :
    mergeAt toolMerge i { d with index := n } calls = mergeAt toolMerge i d calls := by
  induction calls with
  | nil => rfl
  | cons c calls ih =>
    simp only [mergeAt,ih]
    rfl

lemma mergeDeltas_numbered (n : ℕ) (calls : List (ℕ × Call)) :
    mergeDeltas ((ds.zipIdx n).map fun p => { p.1 with index := p.2 }) calls = mergeAll toolMerge ds n calls := by
  induction ds generalizing n calls with
  | nil => rfl
  | cons d ds ih =>
    have hrest := ih (n+1) (mergeAt toolMerge n d calls)
    unfold mergeDeltas mergeAll at hrest ⊢
    rw [zipIdx_cons,map_cons,foldl_cons,mergeAt_index]
    exact hrest

lemma toolDeltas_append :
    toolDeltas (responses++responses') = toolDeltas responses++toolDeltas responses' := flatMap_append

lemma mergeDeltas_append :
    mergeDeltas (deltas++deltas') calls = mergeDeltas deltas' (mergeDeltas deltas calls) := foldl_append

def nameOnly (d : ToolCallResponse) : ToolCallResponse := { d with arguments := [] }

def argumentsOnly (d : ToolCallResponse) : ToolCallResponse := { d with name := "" }

lemma toolMerge_split (d : ToolCallResponse) :
    toolMerge.extend (toolMerge.start (nameOnly d)) (argumentsOnly d) = toolMerge.start d := by
  by_cases hname : d.name = "" <;> simp [toolMerge,nameOnly,argumentsOnly]

/-- The deltas a client gets for one chunk: names and arguments apart when the chunk opens the stream. -/
def chunkDeltas (h : Handler) (candidate : GeminiChatCandidate) : List ToolCallResponse :=
  if h.sendResponseCount = 0 then
    (toolCallsOf candidate).map nameOnly++(toolCallsOf candidate).map argumentsOnly
  else toolCallsOf candidate

lemma toolDeltas_handleChunk (h : Handler) :
    toolDeltas (handleChunk h [candidate]).2 = chunkDeltas h candidate := by
  have hcalls : (choiceOf candidate).delta.toolCalls = toolCallsOf candidate := rfl
  by_cases hstart : h.sendResponseCount = 0
  · by_cases hnone : toolCallsOf candidate = []
    · simp [handleChunk,streamResponseGeminiChat2OpenAI,isToolCall,chunkDeltas,toolDeltas,hstart,hcalls,hnone]
    · have hpos := length_pos_iff.mpr hnone
      have hheader : nameOnly = fun d => { d with arguments := [] } := funext fun _ => rfl
      have hbody : argumentsOnly = fun d => { d with name := "" } := funext fun _ => rfl
      simp [handleChunk,streamResponseGeminiChat2OpenAI,isToolCall,chunkDeltas,toolDeltas,hstart,hcalls,hpos,
        startResponse,clearToolCalls,clearFinish,hheader,hbody]
  · simp [handleChunk,streamResponseGeminiChat2OpenAI,chunkDeltas,toolDeltas,hstart,hcalls]

lemma chunkDeltas_nil (hnone : candidate.calls = []) : chunkDeltas h candidate = [] := by
  simp [chunkDeltas,toolCallsOf,hnone]

lemma toolCallsOf_map {g : ToolCallResponse → ToolCallResponse}
    (hg : ∀ (d : ToolCallResponse) (n : ℕ), g { d with index := n } = { g d with index := n }) :
    (toolCallsOf candidate).map g =
      (((candidate.calls.map getResponseToolCall).map g).zipIdx).map fun p => { p.1 with index := p.2 } := by
  rw [zipIdx_map,toolCallsOf,map_map,map_map]
  apply map_congr_left
  intro p _
  exact hg p.1 p.2

def callOf (call : FunctionCall) : Call := ⟨call.functionName,[sentArguments call.arguments]⟩

theorem mergeDeltas_chunkDeltas (h : Handler) :
    mergeDeltas (chunkDeltas h candidate) [] = numbered 0 (candidate.calls.map callOf) := by
  have hempty : ∀ v ∈ ([] : List (ℕ × Call)), v.1 < 0 := by simp
  have hall : mergeDeltas (chunkDeltas h candidate) [] = mergeAll toolMerge (candidate.calls.map getResponseToolCall) 0 [] := by
    by_cases hstart : h.sendResponseCount = 0
    · rw [chunkDeltas,if_pos hstart,mergeDeltas_append,toolCallsOf_map fun _ _ => rfl,
        toolCallsOf_map fun _ _ => rfl,mergeDeltas_numbered,mergeDeltas_numbered]
      exact mergeAll_split toolMerge_split hempty _
    · rw [chunkDeltas,if_neg hstart,toolCallsOf,mergeDeltas_numbered]
  rw [hall,mergeAll_new hempty,map_map]
  rfl

lemma toolDeltas_handleChunks_nil {chunks : List GeminiChatCandidate} (h : Handler)
    (hnone : ∀ c ∈ chunks, c.calls = []) : toolDeltas (handleChunks h (chunks.map ([·]))) = [] := by
  induction chunks generalizing h with
  | nil => rfl
  | cons c chunks ih =>
    have hhere := chunkDeltas_nil (h := h) (hnone c mem_cons_self)
    have hrest := ih (handleChunk h [c]).1 fun d hd => hnone d (mem_cons_of_mem c hd)
    rw [map_cons,handleChunks,toolDeltas_append,toolDeltas_handleChunk,hhere,hrest]
    rfl

/-- At most one chunk of the stream has functionCall parts. -/
def OneCallingChunk (chunks : List GeminiChatCandidate) : Prop :=
  chunks.Pairwise fun a b => a.calls = [] ∨ b.calls = []

lemma mergeDeltas_handleChunks (h : Handler) (hone : OneCallingChunk chunks) :
    mergeDeltas (toolDeltas (handleChunks h (chunks.map ([·])))) [] =
      numbered 0 ((chunks.flatMap (·.calls)).map callOf) := by
  induction chunks generalizing h with
  | nil => rfl
  | cons c chunks ih =>
    obtain ⟨hfirst,hrest⟩ := pairwise_cons.mp hone
    rw [map_cons,handleChunks,toolDeltas_append,toolDeltas_handleChunk,flatMap_cons]
    by_cases hc : c.calls = []
    · rw [chunkDeltas_nil hc,nil_append,ih _ hrest,hc,nil_append]
    · have hnone : ∀ d ∈ chunks, d.calls = [] := fun d hd => (hfirst d hd).resolve_left hc
      rw [toolDeltas_handleChunks_nil _ hnone,append_nil,mergeDeltas_chunkDeltas,flatMap_eq_nil_iff.mpr hnone,
        append_nil]

/-- Characters that unescaping leaves alone: no backslash starts a known escape or stands at the end. -/
def intactChars : Bool → List Char → Bool
  | escaped,[] => !escaped
  | true,r::s => (escape? r).isNone && intactChars false s
  | false,r::s => intactChars (r == backslash) s

/-- A string with the replacement character is left alone as a whole. -/
def intactString (s : String) : Bool := s.toList.contains (Char.ofNat 0xfffd) || intactChars false s.toList

def intact : Json → Bool
  | .obj ms => members ms
  | .arr vs => elements vs
  | .str s => intactString s
  | _ => true
where
  members : List (String × Json) → Bool
  | [] => true
  | (_,v)::ms => intact v && members ms
  elements : List Json → Bool
  | [] => true
  | v::vs => intact v && elements vs

def intactArguments : Json → Bool
  | .obj ms => intact (.obj ms)
  | _ => true

lemma unescapeChars_error (h : Char.ofNat 0xfffd ∈ s) : unescapeChars escaped s = none := by
  induction s generalizing escaped with
  | nil => simp at h
  | cons r s ih =>
    by_cases hr : r = Char.ofNat 0xfffd
    · simp [unescapeChars,hr]
    · have hs : Char.ofNat 0xfffd ∈ s := (mem_cons.mp h).resolve_left fun he => hr he.symm
      simp [unescapeChars,ih hs]

/-- A pending backslash counts as one more character of the input. -/
def pending : Bool → List Char → List Char
  | true,s => backslash::s
  | false,s => s

lemma unescapeChars_intact (h : Char.ofNat 0xfffd ∉ s) (escaped : Bool) :
    ∃ t, unescapeChars escaped s = some t ∧ t.length ≤ (pending escaped s).length ∧
      (t = pending escaped s ↔ intactChars escaped s) := by
  induction s generalizing escaped with
  | nil => cases escaped <;> simp [unescapeChars,pending,intactChars]
  | cons r s ih =>
    simp only [mem_cons,not_or] at h
    obtain ⟨hr,hs⟩ := h
    replace hr := Ne.symm hr
    cases escaped with
    | true =>
      obtain ⟨t,ht,hlen,hiff⟩ := ih hs false
      simp only [pending] at hlen hiff
      cases he : escape? r with
      | none =>
        refine ⟨backslash::r::t,?_,?_,?_⟩
        · simp [unescapeChars,hr,ht,he]
        · simpa [pending] using hlen
        · simp [pending,intactChars,he,hiff]
      | some c =>
        -- an escape takes two characters and yields one
        have hshort : (c::t).length < (pending true (r::s)).length := by
          simp only [pending,length_cons]
          omega
        have hne : c::t ≠ pending true (r::s) := fun heq => Nat.ne_of_lt hshort (congrArg length heq)
        refine ⟨c::t,?_,Nat.le_of_lt hshort,?_⟩
        · simp [unescapeChars,hr,ht,he]
        · simp [hne,intactChars,he]
    | false =>
      by_cases hb : r = backslash
      · obtain ⟨t,ht,hlen,hiff⟩ := ih hs true
        subst hb
        refine ⟨t,?_,hlen,?_⟩
        · simp [unescapeChars,hr,ht]
        · simpa [pending,intactChars] using hiff
      · obtain ⟨t,ht,hlen,hiff⟩ := ih hs false
        simp only [pending] at hlen hiff
        have hplain : (r == backslash) = false := beq_false_of_ne hb
        refine ⟨r::t,?_,?_,?_⟩
        · simp [unescapeChars,hr,hb,ht]
        · simpa [pending] using hlen
        · simp [pending,intactChars,hplain,hiff]

lemma unescapeString_getD : (unescapeString s).getD s = s ↔ intactString s := by
  by_cases herr : Char.ofNat 0xfffd ∈ s.toList
  · simp [unescapeString,unescapeChars_error herr,intactString,herr]
  · obtain ⟨t,ht,_,hiff⟩ := unescapeChars_intact herr false
    have hlist : String.ofList t = s ↔ t = s.toList := by
      constructor
      · intro h
        rw [← h,String.toList_ofList]
      · intro h
        rw [h,String.ofList_toList]
    simp [unescapeString,ht,intactString,herr,hlist,← hiff,pending]

mutual

lemma unescapeMapOrSlice_eq : ∀ v : Json, unescapeMapOrSlice v = v ↔ intact v = true
  | .obj ms => by simp [unescapeMapOrSlice,intact,unescapeMembers_eq ms]
  | .arr vs => by simp [unescapeMapOrSlice,intact,unescapeElements_eq vs]
  | .str s => by simp [unescapeMapOrSlice,intact,unescapeString_getD]
  | .null => by simp [unescapeMapOrSlice,intact]
  | .bool _ => by simp [unescapeMapOrSlice,intact]
  | .num _ => by simp [unescapeMapOrSlice,intact]

lemma unescapeMembers_eq : ∀ ms : List (String × Json), unescapeMapOrSlice.members ms = ms ↔ intact.members ms = true
  | [] => by simp [unescapeMapOrSlice.members,intact.members]
  | (name,v)::ms => by simp [unescapeMapOrSlice.members,intact.members,unescapeMapOrSlice_eq v,unescapeMembers_eq ms]

lemma unescapeElements_eq : ∀ vs : List Json, unescapeMapOrSlice.elements vs = vs ↔ intact.elements vs = true
  | [] => by simp [unescapeMapOrSlice.elements,intact.elements]
  | v::vs => by simp [unescapeMapOrSlice.elements,intact.elements,unescapeMapOrSlice_eq v,unescapeElements_eq vs]

end

lemma sentArguments_eq : sentArguments arguments = arguments ↔ intactArguments arguments := by
  cases arguments with
  | obj ms => exact unescapeMapOrSlice_eq (.obj ms)
  | _ => simp [sentArguments,intactArguments]

/-- The calls of a chunk arrive one by one, with the strings of map arguments unescaped. -/
theorem received_calls {chunks : List GeminiChatCandidate} (hone : OneCallingChunk chunks) :
    received (handleChunks {} (chunks.map ([·]))) = (chunks.flatMap (·.calls)).map callOf ∧
    ∀ call ∈ chunks.flatMap (·.calls), callOf call = ⟨call.functionName,[call.arguments]⟩ ↔
      intactArguments call.arguments = true := by
  refine ⟨?_,?_⟩
  · rw [received,mergeDeltas_handleChunks {} hone,numbered_snd]
  · intro call _
    simp [callOf,sentArguments_eq]

def textChunk : GeminiChatCandidate := { parts := [{ text := "on it" }] }

def noteCall (text : String) : FunctionCall := ⟨"note",.obj [("text",.str text)]⟩

def noteChunk (texts : List String) : GeminiChatCandidate :=
  { parts := texts.map fun text => { functionCall := some (noteCall text) }, finishReason := some "STOP" }

theorem received_calls_notes : OneCallingChunk [textChunk,noteChunk ["a","b\\z"]] ∧
    received (handleChunks {} ([textChunk,noteChunk ["a","b\\z"]].map ([·]))) =
      ([textChunk,noteChunk ["a","b\\z"]].flatMap (·.calls)).map callOf := by
  have hone : OneCallingChunk [textChunk,noteChunk ["a","b\\z"]] := by
    simp [OneCallingChunk,textChunk,GeminiChatCandidate.calls,GeminiPart.call?]
  exact ⟨hone,(received_calls hone).1⟩

theorem escaped_text_changed : received (handleChunks {} [[noteChunk ["line1\\nline2"]]]) ≠
    [⟨"note",[.obj [("text",.str "line1\\nline2")]]⟩] := by
  intro heq
  have hone : OneCallingChunk [noteChunk ["line1\\nline2"]] := pairwise_singleton _ _
  have hgot : received (handleChunks {} [[noteChunk ["line1\\nline2"]]]) = [callOf (noteCall "line1\\nline2")] := by
    have hmer := mergeDeltas_handleChunks {} hone
    rw [map_singleton] at hmer
    rw [received]
    rfl
  have hcall : callOf (noteCall "line1\\nline2") = ⟨"note",[.obj [("text",.str "line1\\nline2")]]⟩ := by
    simpa using hgot.symm.trans heq
  have hsame : sentArguments (noteCall "line1\\nline2").arguments = (noteCall "line1\\nline2").arguments := by
    simpa [callOf,noteCall] using congrArg Call.arguments hcall
  have hint := (sentArguments_eq).mp hsame
  revert hint
  decide

end LurusHub.GeminiUpstream
