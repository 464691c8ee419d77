import LurusHub.ChatToClaude

/-! What of a conversation survives the conversion. Both sides are read as a sequence of texts, tool
uses and tool results; `Reads` relates the two, with neighbouring texts joined. Which assistant
message a tool result answers is followed separately. -/
namespace LurusHub.ChatToClaude
open ClaudeMessage ChatToClaude
open List hiding format

inductive Item
  | text (role : Role) (text : String)
  | use (id name : String)
  | result (id : String)
  deriving DecidableEq

inductive Reads : List Item → List Item → Prop
  | nil : Reads [] []
  | item {ins outs : List Item} (i : Item) : Reads ins outs → Reads (ins++[i]) (outs++[i])
  | join {ins outs : List Item} {role : Role} {a : String} (b : String) : Reads ins (outs++[.text role a]) →
      Reads (ins++[.text role b]) (outs++[.text role (a++" "++b)])

lemma Reads.items (h : Reads ins outs) (is : List Item) : Reads (ins++is) (outs++is) := by
  induction is generalizing ins outs with
  | nil => simpa using h
  | cons i is ih => simpa using ih (h.item i)

def Item.use? : Item → Option (String × String)
  | .use id name => some (id,name)
  | _ => none

def textOf : Content → String
  | .null => "..."
  | .str s => s
  | .parts _ => ""

@[simp] lemma textOf_str : textOf (.str s) = s := rfl

def callsOf (m : Message) : List ToolCall := if m.role = .assistant then m.toolCalls.getD [] else []

def uses (isObject : String → Bool) (calls : List ToolCall) : List Item :=
  (calls.filter fun c => isObject c.arguments).map fun c => .use c.id c.name

def items (isObject : String → Bool) (m : Message) : List Item :=
  if m.role = .tool then [.result m.toolCallId] else .text m.role (textOf m.content)::uses isObject (callsOf m)

def itemsOf (isObject : String → Bool) (keep : Role → Bool) (ms : List Message) : List Item :=
  ms.flatMap fun m => if keep m.role then items isObject m else []

structure Plain (m : Message) : Prop where
  role : m.role = .system ∨ m.role = .user ∨ m.role = .assistant ∨ m.role = .tool
  content : ∀ ps, m.content ≠ .parts ps

structure Tail where
  role : Role
  text : String
  calls : List ToolCall
  deriving DecidableEq

def joined (tail : Option Tail) (m : Message) : Option (Tail × String) :=
  match tail,m.content with
  | some t,.str b => if t.role = m.role ∧ t.role ≠ .tool then some (t,b) else none
  | _,_ => none

def nextTail (tail : Option Tail) (m : Message) : Tail :=
  ⟨m.role,(joined tail m).elim (textOf m.content) fun p => p.1.text++" "++p.2,callsOf m⟩

/-- No message that another one is joined to has tool calls, and no joined text begins or ends with a
double quote. -/
def Lossless : Option Tail → List Message → Prop
  | _,[] => True
  | tail,m::ms =>
    (∀ p ∈ joined tail m, p.1.calls = [] ∧ trimQuotes (p.1.text++" "++p.2) = p.1.text++" "++p.2) ∧
      Lossless (some (nextTail tail m)) ms

def decideLossless : (tail : Option Tail) → (ms : List Message) → Decidable (Lossless tail ms)
  | _,[] => .isTrue trivial
  | tail,m::ms => @instDecidableAnd _ _ inferInstance (decideLossless (some (nextTail tail m)) ms)

instance (tail : Option Tail) (ms : List Message) : Decidable (Lossless tail ms) := decideLossless tail ms

def tailOf : List Message → Option Tail
  | [] => none
  | m::_ => some ⟨m.role,textOf m.content,callsOf m⟩

lemma tailOf_cons : tailOf (m::ms) = some ⟨m.role,textOf m.content,callsOf m⟩ := rfl

lemma formatted_plain (h : Plain m) : (formatted m).role = m.role ∧ (formatted m).content = m.content ∧
    callsOf (formatted m) = callsOf m ∧ (m.role = .tool → (formatted m).toolCallId = m.toolCallId) := by
  rcases m with ⟨role,content,calls,id⟩
  rcases h.role with rfl | rfl | rfl | rfl <;> simp [formatted,callsOf]

def retext (m : Message) (text : String) : Message := { m with content := .str text }

@[simp] lemma retext_role : (retext m text).role = m.role := rfl
@[simp] lemma retext_content : (retext m text).content = .str text := rfl
@[simp] lemma callsOf_retext : callsOf (retext m text) = callsOf m := rfl

structure ShownMessage (m : Message) : Prop where
  plain : Plain m
  content : m.content = .str (textOf m.content)
  calls : m.role ≠ .assistant → m.toolCalls = none

def Shown (done : List Message) : Prop := ∀ m ∈ done, ShownMessage m

lemma joinsTo_formatted (h : Plain m) (hdone : Shown done) :
    joinsTo (formatted m) done = (joined (tailOf done) m).map fun p => (p.1.text,p.2,done.tail) := by
  obtain ⟨hrole,hcon,-,-⟩ := formatted_plain h
  cases done with
  | nil =>
    simp [joinsTo,tailOf,joined]
  | cons last rest =>
    have hlast := (hdone last mem_cons_self).content
    simp only [joinsTo,hrole,hcon,tailOf,joined]
    cases hm : m.content with
    | str b =>
      by_cases hsame : last.role = m.role ∧ last.role ≠ .tool
      · simp only [if_pos hsame]
        rw [hlast]
        rfl
      · simp only [if_neg hsame]
        rfl
    | null | parts ps =>
      simp

lemma joined_eq_some (h : joined (tailOf done) m = some p) :
    ∃ last rest, done = last::rest ∧ p.1 = ⟨last.role,textOf last.content,callsOf last⟩ ∧ m.content = .str p.2 ∧
      last.role = m.role ∧ m.role ≠ .tool := by
  cases done with
  | nil => simp [tailOf,joined] at h
  | cons last rest =>
    simp only [tailOf,joined] at h
    cases hm : m.content with
    | null | parts ps => simp [hm] at h
    | str b =>
      simp only [hm] at h
      split at h
      · next hsame =>
        simp only [Option.some.injEq] at h
        subst h
        exact ⟨last,rest,rfl,rfl,rfl,hsame.1,hsame.1 ▸ hsame.2⟩
      · cases h

lemma itemsOf_append :
    itemsOf obj keep (ms++ms') = itemsOf obj keep ms++itemsOf obj keep ms' := flatMap_append

lemma itemsOf_single : itemsOf obj keep [m] = if keep m.role then items obj m else [] :=
  flatMap_singleton _ _

lemma showNull_formatted (h : Plain m) : showNull (formatted m) = retext (formatted m) (textOf m.content) := by
  rcases m with ⟨role,content,calls,id⟩
  cases content with
  | null | str s => rfl
  | parts ps => exact absurd rfl (h.content ps)

lemma items_retext (h : Plain m) : items obj (retext (formatted m) text) =
    if m.role = .tool then [.result m.toolCallId] else .text m.role text::uses obj (callsOf m) := by
  obtain ⟨hrole,-,hcalls,hid⟩ := formatted_plain h
  simp only [items,retext_role,hrole,callsOf_retext,hcalls]
  split
  · next htool => simp [retext,hid htool]
  · rfl

lemma shown_retext (h : Plain m) : ShownMessage (retext (formatted m) text) := by
  refine ⟨⟨?_,by simp⟩,rfl,fun hne => ?_⟩
  · rw [retext_role,(formatted_plain h).1]
    exact h.role
  · simp only [retext,formatted] at hne ⊢
    rw [if_neg hne]

/-- The messages a new one is put on: a join takes the last one out. -/
def below (done : List Message) (m : Message) : List Message :=
  if (joined (tailOf done) m).isSome then done.tail else done

/-- A join to a message without tool calls that trims no quote. -/
abbrev JoinsWhole (done : List Message) (m : Message) : Prop :=
  ∀ p ∈ joined (tailOf done) m, p.1.calls = [] ∧ trimQuotes (p.1.text++" "++p.2) = p.1.text++" "++p.2

section
variable (h : Plain m) (hdone : Shown done) (hlos : JoinsWhole done m)
include h hdone hlos

lemma formatStep_eq :
    formatStep done m = retext (formatted m) (nextTail (tailOf done) m).text::below done m := by
  simp only [formatStep,joinsTo_formatted h hdone,below,nextTail]
  cases hjoined : joined (tailOf done) m with
  | none => simp [showNull_formatted h]
  | some p => simp [retext,(hlos p hjoined).2]

lemma formatStep_reads (hrea : Reads ins (itemsOf obj keep done.reverse)) :
    Reads (ins++itemsOf obj keep [m]) (itemsOf obj keep (formatStep done m).reverse) := by
  have hrole := (formatted_plain h).1
  rw [formatStep_eq h hdone hlos,reverse_cons,itemsOf_append,itemsOf_single,itemsOf_single,items_retext h,
    retext_role,hrole,below,nextTail]
  cases hjoined : joined (tailOf done) m with
  | none =>
    exact hrea.items _
  | some p =>
    obtain ⟨last,rest,rfl,hp,hm,hsame,htool⟩ := joined_eq_some hjoined
    have hcalls : callsOf last = [] := by simpa [hp] using (hlos p hjoined).1
    have hlast : items obj last = [.text m.role p.1.text] := by simp [items,hsame,htool,hcalls,uses,hp]
    have hthis : items obj m = .text m.role p.2::uses obj (callsOf m) := by simp [items,htool,hm]
    rw [reverse_cons,itemsOf_append,itemsOf_single,hsame,hlast] at hrea
    rw [hthis,if_neg htool]
    by_cases hkeep : keep m.role
    · simp only [hkeep] at hrea ⊢
      have hnext := (hrea.join p.2).items (uses obj (callsOf m))
      simpa using hnext
    · simpa [hkeep] using hrea

lemma formatStep_tail :
    Shown (formatStep done m) ∧ tailOf (formatStep done m) = some (nextTail (tailOf done) m) := by
  obtain ⟨hrole,-,hcalls,-⟩ := formatted_plain h
  rw [formatStep_eq h hdone hlos]
  refine ⟨forall_mem_cons.mpr ⟨shown_retext h,fun m' hm' => hdone m' ?_⟩,?_⟩
  · unfold below at hm'
    split at hm'
    · exact mem_of_mem_tail hm'
    · exact hm'
  · rw [tailOf_cons,retext_role,hrole,callsOf_retext,hcalls]
    rfl

end

theorem foldl_formatStep_reads (hplain : ∀ m ∈ ms, Plain m) (hdone : Shown done)
    (hlos : Lossless (tailOf done) ms) (hrea : Reads ins (itemsOf obj keep done.reverse)) :
    Shown (ms.foldl formatStep done) ∧
      Reads (ins++itemsOf obj keep ms) (itemsOf obj keep (ms.foldl formatStep done).reverse) := by
  induction ms generalizing done ins with
  | nil => exact ⟨hdone,by simpa [itemsOf] using hrea⟩
  | cons m ms ih =>
    have hm := hplain m mem_cons_self
    obtain ⟨hhere,hrest⟩ := hlos
    obtain ⟨hsho,htail⟩ := formatStep_tail hm hdone hhere
    have hstep := formatStep_reads hm hdone hhere hrea
    rw [← htail] at hrest
    have hfold := ih (fun m' hm' => hplain m' (mem_cons_of_mem m hm')) hsho hrest hstep
    rw [append_assoc,← itemsOf_append] at hfold
    exact hfold

lemma formatMessages_reads (obj : String → Bool) (keep : Role → Bool) (hplain : ∀ m ∈ ms, Plain m) (hlos : Lossless none ms) :
    Shown (formatMessages ms) ∧ Reads (itemsOf obj keep ms) (itemsOf obj keep (formatMessages ms)) := by
  have hstart := Reads.nil
  obtain ⟨hsho,hrea⟩ := foldl_formatStep_reads hplain (fun m hm => absurd hm not_mem_nil) hlos hstart
  exact ⟨fun m hm => hsho m (mem_reverse.mp hm),hrea⟩

def lastCalls : List Message → List ToolCall
  | [] => []
  | m::earlier => if m.role = .assistant then callsOf m else lastCalls earlier

/-- Each tool message with the calls of the closest assistant message before it, read from the end. -/
def toolAnswers : List Message → List (String × List ToolCall)
  | [] => []
  | m::earlier => toolAnswers earlier++if m.role = .tool then [(m.toolCallId,lastCalls earlier)] else []

theorem formatStep_answers (h : Plain m) (hdone : Shown done) (hlos : JoinsWhole done m)
    (hcalls : lastCalls done = lastCalls seen) (hanswers : toolAnswers done = toolAnswers seen) :
    lastCalls (formatStep done m) = lastCalls (m::seen) ∧ toolAnswers (formatStep done m) = toolAnswers (m::seen) := by
  obtain ⟨hrole,-,hcal,hid⟩ := formatted_plain h
  simp only [formatStep_eq h hdone hlos,lastCalls,toolAnswers,retext_role,callsOf_retext,hrole,hcal,below]
  cases hjoined : joined (tailOf done) m with
  | none =>
    refine ⟨by simp [hcalls],?_⟩
    by_cases htool : m.role = .tool
    · simp [htool,hanswers,hcalls,retext,hid htool]
    · simp [htool,hanswers]
  | some p =>
    obtain ⟨last,rest,rfl,-,-,hsame,htool⟩ := joined_eq_some hjoined
    rw [lastCalls,hsame] at hcalls
    simp only [toolAnswers,hsame,htool,if_false,append_nil] at hanswers
    refine ⟨?_,by simp [htool,hanswers]⟩
    by_cases hass : m.role = .assistant
    · simp [hass]
    · simpa [hass] using hcalls

lemma foldl_formatStep_answers (hplain : ∀ m ∈ ms, Plain m) (hdone : Shown done)
    (hlos : Lossless (tailOf done) ms) (hcalls : lastCalls done = lastCalls seen)
    (hanswers : toolAnswers done = toolAnswers seen) :
    toolAnswers (ms.foldl formatStep done) = toolAnswers (ms.reverse++seen) := by
  induction ms generalizing done seen with
  | nil => exact hanswers
  | cons m ms ih =>
    have hm := hplain m mem_cons_self
    obtain ⟨hhere,hrest⟩ := hlos
    obtain ⟨hsho,htail⟩ := formatStep_tail hm hdone hhere
    rw [← htail] at hrest
    obtain ⟨hcalls',hanswers'⟩ := formatStep_answers hm hdone hhere hcalls hanswers
    rw [reverse_cons,append_assoc]
    exact ih (fun m' hm' => hplain m' (mem_cons_of_mem m hm')) hsho hrest hcalls' hanswers'

/-! The converted messages, read block by block. -/

def blockItems (role : Role) : Block → List Item
  | .text t => [.text role t]
  | .image _ _ => []
  | .toolUse id name _ => [.use id name]
  | .toolResult id _ => [.result id]

def ClaudeMessage.items (m : ClaudeMessage) : List Item := m.content.toBlocks.flatMap (blockItems m.role)

def Item.result? : Item → Option String
  | .result id => some id
  | _ => none

def ClaudeMessage.useIds (m : ClaudeMessage) : List String := (m.items.filterMap Item.use?).map Prod.fst

def ClaudeMessage.resultIds (m : ClaudeMessage) : List String := m.items.filterMap Item.result?

def lastUses : List ClaudeMessage → List String
  | [] => []
  | m::earlier => if m.role = .assistant then m.useIds else lastUses earlier

def resultAnswers : List ClaudeMessage → List (String × List String)
  | [] => []
  | m::earlier => resultAnswers earlier++m.resultIds.map (·,lastUses earlier)

def messagesItems (messages : List ClaudeMessage) : List Item := messages.reverse.flatMap ClaudeMessage.items

def callIds (isObject : String → Bool) (calls : List ToolCall) : List String :=
  (calls.filter fun c => isObject c.arguments).map ToolCall.id

lemma uses_ids (env : Env) (calls : List ToolCall) :
    ((uses env.isObject calls).filterMap Item.use?).map Prod.fst = callIds env.isObject calls ∧
      (uses env.isObject calls).filterMap Item.result? = [] := by
  unfold uses callIds
  induction calls.filter fun c => env.isObject c.arguments with
  | nil => exact ⟨rfl,rfl⟩
  | cons c calls ih =>
    simp only [map_cons,filterMap_cons,Item.use?]
    exact ⟨by rw [← ih.1],ih.2⟩

lemma toolUseBlocks_items (role : Role) :
    (toolUseBlocks env calls).flatMap (blockItems role) = uses env.isObject calls := by
  unfold toolUseBlocks uses
  induction calls.filter fun c => env.isObject c.arguments with
  | nil => rfl
  | cons c calls ih =>
    simp only [map_cons,flatMap_cons,ih]
    rfl

lemma convertMessage_shown (env : Env) (h : ShownMessage m) (htool : m.role ≠ .tool) :
    ∃ out, convertMessage env m = .ok out ∧ out.role = m.role ∧ out.items = items env.isObject m := by
  have hitems : items env.isObject m = .text m.role (textOf m.content)::uses env.isObject (callsOf m) := by
    simp [items,htool]
  rw [hitems]
  unfold convertMessage
  rw [h.content]
  cases hcalls : m.toolCalls with
  | none =>
    refine ⟨_,rfl,rfl,?_⟩
    simp [ClaudeMessage.items,ClaudeContent.toBlocks,blockItems,callsOf,hcalls,uses]
  | some calls =>
    have hass : m.role = .assistant := by
      by_contra hne
      rw [h.calls hne] at hcalls
      cases hcalls
    refine ⟨_,rfl,rfl,?_⟩
    simp [ClaudeMessage.items,ClaudeContent.toBlocks,blockItems,callsOf,hcalls,hass,toolUseBlocks_items]

structure Tracks (env : Env) (st : State) (seen : List Message) (lead : List Item) : Prop where
  items : messagesItems st.messages = lead++itemsOf env.isObject (· ≠ .system) seen.reverse
  system : st.system.map (Item.text .system) = itemsOf env.isObject (· = .system) seen.reverse
  uses : lastUses st.messages = callIds env.isObject (lastCalls seen)
  answers : resultAnswers st.messages = (toolAnswers seen).map fun p => (p.1,callIds env.isObject p.2)
  fresh : st.isFirstMessage = true → st.messages = []
  lead : lead = [] ∨ lead = [.text .user "..."]

lemma messagesItems_cons (m : ClaudeMessage) :
    messagesItems (m::earlier) = messagesItems earlier++m.items := by
  simp [messagesItems]

lemma itemsOf_reverse_cons : itemsOf obj keep (m::seen).reverse =
      itemsOf obj keep seen.reverse++if keep m.role then ChatToClaude.items obj m else [] := by
  rw [reverse_cons,itemsOf_append,itemsOf_single]

lemma openTurn_tracks (h : Tracks env st seen lead) (role : Role) :
    (openTurn st role).isFirstMessage = false ∧ ∃ lead', Tracks env (openTurn st role) seen lead' := by
  cases hfirst : st.isFirstMessage with
  | false =>
    have hsame : openTurn st role = st := by simp [openTurn,hfirst]
    rw [hsame]
    exact ⟨hfirst,lead,h⟩
  | true =>
    refine ⟨by simp [openTurn,hfirst],?_⟩
    have hempty := h.fresh hfirst
    have hitems := h.items
    rw [hempty] at hitems
    obtain ⟨hlead,hnone⟩ := append_eq_nil_iff.mp hitems.symm
    by_cases hrole : role = .user
    · refine ⟨[],?_⟩
      have hsame : openTurn st role = { st with isFirstMessage := false } := by simp [openTurn,hfirst,hrole]
      rw [hsame]
      exact ⟨by rw [hlead] at h; exact h.items,h.system,h.uses,h.answers,by simp,.inl rfl⟩
    · refine ⟨[.text .user "..."],?_⟩
      have hturn : openTurn st role =
          { st with isFirstMessage := false, messages := [⟨.user,.blocks [.text "..."]⟩] } := by
        simp [openTurn,hfirst,hrole,hempty]
      rw [hturn]
      refine ⟨?_,h.system,?_,?_,by simp,.inr rfl⟩
      · rw [hnone]
        rfl
      · have huses := h.uses
        rw [hempty] at huses
        exact huses
      · have hanswers := h.answers
        rw [hempty] at hanswers
        exact hanswers

lemma newResult_spec (msgs : List ClaudeMessage) (m : Message) :
    let messages' : List ClaudeMessage := ⟨.user,.blocks [.toolResult m.toolCallId m.content]⟩::msgs
    messagesItems messages' = messagesItems msgs++[.result m.toolCallId] ∧ lastUses messages' = lastUses msgs ∧
      resultAnswers messages' = resultAnswers msgs++[(m.toolCallId,lastUses msgs)] :=
  ⟨messagesItems_cons _,rfl,rfl⟩

lemma addToolResult_spec :
    messagesItems (addToolResult msgs m) = messagesItems msgs++[.result m.toolCallId] ∧
      lastUses (addToolResult msgs m) = lastUses msgs ∧
      resultAnswers (addToolResult msgs m) = resultAnswers msgs++[(m.toolCallId,lastUses msgs)] := by
  cases msgs with
  | nil => exact newResult_spec [] m
  | cons last rest =>
    by_cases huser : last.role = .user
    · have hadd : addToolResult (last::rest) m =
          { last with content := .blocks (last.content.toBlocks++[.toolResult m.toolCallId m.content]) }::rest := by
        simp [addToolResult,huser]
      have hitems : ClaudeMessage.items
          { last with content := .blocks (last.content.toBlocks++[.toolResult m.toolCallId m.content]) } =
            last.items++[.result m.toolCallId] := by
        simp [ClaudeMessage.items,ClaudeContent.toBlocks,blockItems]
      rw [hadd]
      refine ⟨?_,?_,?_⟩
      · rw [messagesItems_cons,messagesItems_cons,hitems,append_assoc]
      · simp [lastUses,huser]
      · have huses : lastUses (last::rest) = lastUses rest := by simp [lastUses,huser]
        rw [huses,resultAnswers,resultAnswers,resultIds,hitems]
        simp [resultIds,Item.result?]
    · have hadd : addToolResult (last::rest) m = ⟨.user,.blocks [.toolResult m.toolCallId m.content]⟩::last::rest := by
        simp [addToolResult,huser]
      rw [hadd]
      exact newResult_spec (last::rest) m

section
variable (h : Tracks env st seen lead)
include h

lemma convertStep_system (hm : ShownMessage m) (hsystem : m.role = .system) :
    ∃ st', convertStep env st m = .ok st' ∧ Tracks env st' (m::seen) lead := by
  refine ⟨{ st with system := st.system++systemTexts m.content },by simp [convertStep,hsystem],?_⟩
  refine ⟨?_,?_,?_,?_,h.fresh,h.lead⟩
  · rw [itemsOf_reverse_cons]
    simpa [hsystem] using h.items
  · rw [itemsOf_reverse_cons,map_append,h.system,hm.content]
    simp [hsystem,systemTexts,items,callsOf,uses]
  · simpa [lastCalls,hsystem] using h.uses
  · simpa [toolAnswers,hsystem] using h.answers

lemma convertStep_tool (htool : m.role = .tool) :
    ∃ st' lead', convertStep env st m = .ok st' ∧ Tracks env st' (m::seen) lead' := by
  obtain ⟨hfirst,lead',hopen⟩ := openTurn_tracks h m.role
  obtain ⟨hitems,huses,hanswers⟩ := addToolResult_spec
  refine ⟨{ openTurn st m.role with messages := addToolResult (openTurn st m.role).messages m },lead',
    by simp [convertStep,htool],?_⟩
  refine ⟨?_,?_,?_,?_,fun hcon => absurd hcon (by simp [hfirst]),hopen.lead⟩
  · rw [hitems,hopen.items,itemsOf_reverse_cons]
    simp [htool,items]
  · rw [itemsOf_reverse_cons]
    simpa [htool] using hopen.system
  · rw [huses,hopen.uses]
    simp [lastCalls,htool]
  · rw [hanswers,hopen.answers,hopen.uses]
    simp [toolAnswers,htool]

lemma convertStep_turn (hm : ShownMessage m) (hsystem : m.role ≠ .system)
    (htool : m.role ≠ .tool) : ∃ st' lead', convertStep env st m = .ok st' ∧ Tracks env st' (m::seen) lead' := by
  obtain ⟨hfirst,lead',hopen⟩ := openTurn_tracks h m.role
  obtain ⟨out,hout,hrole,hitems⟩ := convertMessage_shown env hm htool
  refine ⟨{ openTurn st m.role with messages := out::(openTurn st m.role).messages },lead',
    by simp [convertStep,hsystem,htool,hout,bind,Except.bind,pure,Except.pure],?_⟩
  have hids := uses_ids env (callsOf m)
  have hitems' : items env.isObject m =
      .text m.role (textOf m.content)::uses env.isObject (callsOf m) := by
    simp [items,htool]
  refine ⟨?_,?_,?_,?_,fun hcon => absurd hcon (by simp [hfirst]),hopen.lead⟩
  · rw [messagesItems_cons,hopen.items,hitems,itemsOf_reverse_cons]
    simp [hsystem]
  · rw [itemsOf_reverse_cons]
    simpa [hsystem] using hopen.system
  · simp only [lastUses,hrole,lastCalls]
    split
    · rw [useIds,hitems,hitems']
      exact hids.1
    · exact hopen.uses
  · have hres : out.resultIds = [] := by
      rw [resultIds,hitems,hitems']
      exact hids.2
    simp only [resultAnswers,hres,toolAnswers,htool,if_false,append_nil,map_nil]
    exact hopen.answers

lemma foldlM_convertStep_tracks (hfs : Shown fs) :
    ∃ st' lead', fs.foldlM (convertStep env) st = .ok st' ∧ Tracks env st' (fs.reverse++seen) lead' := by
  induction fs generalizing st seen lead with
  | nil => exact ⟨st,lead,rfl,h⟩
  | cons m fs ih =>
    have hm := hfs m mem_cons_self
    have hstep : ∃ st' lead', convertStep env st m = .ok st' ∧ Tracks env st' (m::seen) lead' := by
      by_cases hsystem : m.role = .system
      · obtain ⟨st',hst',htracks⟩ := convertStep_system h hm hsystem
        exact ⟨st',lead,hst',htracks⟩
      · by_cases htool : m.role = .tool
        · exact convertStep_tool h htool
        · exact convertStep_turn h hm hsystem htool
    obtain ⟨st₁,lead₁,hst₁,htracks₁⟩ := hstep
    obtain ⟨st₂,lead₂,hst₂,htracks₂⟩ := ih htracks₁ fun m' hm' => hfs m' (mem_cons_of_mem m hm')
    refine ⟨st₂,lead₂,?_,by simpa using htracks₂⟩
    rw [foldlM_cons,hst₁]
    exact hst₂

end

structure Converted (isObject : String → Bool) (ms : List Message) (out : ClaudeRequest) : Prop where
  messages : ∃ lead outs, (lead = [] ∨ lead = [.text .user "..."]) ∧
    out.messages.flatMap ClaudeMessage.items = lead++outs ∧ Reads (itemsOf isObject (· ≠ .system) ms) outs
  answers : resultAnswers out.messages.reverse = (toolAnswers ms.reverse).map fun p => (p.1,callIds isObject p.2)
  system : ∃ texts, texts <+: out.system ∧ Reads (itemsOf isObject (· = .system) ms) (texts.map (Item.text .system))

lemma prefix_applyResponseFormat
    (h : applyResponseFormat format texts = .ok system) : texts <+: system := by
  unfold applyResponseFormat at h
  split at h
  · cases h
    exact prefix_rfl
  · cases h
    exact prefix_append _ _
  · cases h
    exact prefix_rfl
  · cases h

/-- Every tool message answers a call of the closest assistant message before it. -/
def Answered (ms : List Message) : Prop := ∀ p ∈ toolAnswers ms.reverse, ∃ c ∈ p.2, c.id = p.1
  deriving Decidable

theorem converted_of_lossless (env : Env) (format : ResponseFormat) {ms : List Message} (hplain : ∀ m ∈ ms, Plain m)
    (hlossless : Lossless none ms) {out : ClaudeRequest} (hout : requestOpenAI2ClaudeMessage env format ms = .ok out) :
    Converted env.isObject ms out := by
  have hstart : Tracks env {} [] [] := ⟨rfl,rfl,rfl,rfl,fun _ => rfl,.inl rfl⟩
  have hconv := formatMessages_reads env.isObject (· ≠ .system) hplain hlossless
  have hsys := formatMessages_reads env.isObject (· = .system) hplain hlossless
  obtain ⟨st,lead,hst,htracks⟩ := foldlM_convertStep_tracks hstart hconv.1
  rw [append_nil] at htracks
  have hanswers : toolAnswers (formatMessages ms).reverse = toolAnswers ms.reverse := by
    have hfold := foldl_formatStep_answers hplain (fun m hm => absurd hm not_mem_nil) hlossless rfl rfl
    rw [append_nil] at hfold
    rw [← hfold,formatMessages,reverse_reverse]
  simp only [requestOpenAI2ClaudeMessage,hst,bind,Except.bind] at hout
  cases hformat : applyResponseFormat format st.system with
  | error e => simp [hformat] at hout
  | ok system =>
    simp only [hformat,pure,Except.pure,Except.ok.injEq] at hout
    subst hout
    refine ⟨⟨lead,_,htracks.lead,htracks.items,?_⟩,?_,⟨st.system,prefix_applyResponseFormat hformat,?_⟩⟩
    · rw [reverse_reverse]
      exact hconv.2
    · rw [reverse_reverse,htracks.answers,hanswers]
    · rw [htracks.system,reverse_reverse]
      exact hsys.2

def emptyObjects : Env := ⟨fun arguments => arguments = "\x7b\x7d",fun _ => .error "no image"⟩

def toolTurn (arguments : String) : List Message :=
  [⟨.system,.str "Be brief.",none,""⟩,⟨.user,.str "Time?",none,""⟩,⟨.user,.str "Now?",none,""⟩,
    ⟨.assistant,.null,some [⟨"c1","clock",arguments⟩],""⟩,⟨.tool,.str "noon",none,"c1"⟩]

lemma toolTurn_plain : ∀ m ∈ toolTurn arguments, Plain m := by
  intro m hm
  simp only [toolTurn,mem_cons,not_mem_nil,or_false] at hm
  rcases hm with rfl | rfl | rfl | rfl | rfl
  all_goals exact ⟨by simp,by simp⟩

def toolTurnRequest (uses : List Block) : ClaudeRequest :=
  ⟨["Be brief."],[⟨.user,.str "Time? Now?"⟩,⟨.assistant,.blocks (.text "..."::uses)⟩,
    ⟨.user,.blocks [.toolResult "c1" (.str "noon")]⟩]⟩

theorem converted_of_lossless_toolTurn : Answered (toolTurn "\x7b\x7d") ∧
    Converted emptyObjects.isObject (toolTurn "\x7b\x7d")
      (toolTurnRequest [.toolUse "c1" "clock" "\x7b\x7d"]) :=
  ⟨by decide +kernel,converted_of_lossless emptyObjects .absent toolTurn_plain (by decide +kernel) (by decide +kernel)⟩

theorem tool_use_skipped : Answered (toolTurn "now") ∧
    requestOpenAI2ClaudeMessage emptyObjects .absent (toolTurn "now") = .ok (toolTurnRequest []) ∧
    ¬Converted (fun _ => true) (toolTurn "now") (toolTurnRequest []) := by
  refine ⟨by decide +kernel,by rfl,fun h => ?_⟩
  have hanswers := h.answers
  revert hanswers
  decide +kernel

end LurusHub.ChatToClaude
