import Mathlib.Data.List.Basic

/-! `RequestOpenAI2ClaudeMessage`: a chat request of the OpenAI wire as a Claude request. The first
pass joins neighbouring texts of one role, the second builds messages and system blocks. Both keep
the messages newest first. -/
namespace LurusHub.ChatToClaude

inductive Role
  | system | user | assistant | tool
  | unset
  | other (role : String)
  deriving DecidableEq

inductive Part
  | text (text : String)
  | image (url : String)
  deriving DecidableEq

inductive Content
  | null
  | str (s : String)
  | parts (ps : List Part)
  deriving DecidableEq

structure ToolCall where
  (id name arguments : String)
  deriving DecidableEq

structure Message where
  role : Role
  content : Content
  toolCalls : Option (List ToolCall) := none
  toolCallId : String := ""
  deriving DecidableEq

def trimQuotes (s : String) : String :=
  let isQuote : Char → Bool := (· = Char.ofNat 34)
  String.ofList (((s.toList.dropWhile isQuote).reverse.dropWhile isQuote).reverse)

def formatted (m : Message) : Message :=
  let role := if m.role = .unset then .user else m.role
  { role := role
    content := m.content
    toolCallId := if role = .tool then m.toolCallId else ""
    toolCalls := if role = .assistant then m.toolCalls else none }

def showNull (m : Message) : Message := if m.content = .null then { m with content := .str "..." } else m

def joinsTo (m : Message) : List Message → Option (String × String × List Message)
  | [] => none
  | last::rest =>
    if last.role = m.role ∧ last.role ≠ .tool then
      match last.content,m.content with
      | .str a,.str b => some (a,b,rest)
      | _,_ => none
    else none

/-- One message of the first pass; a join takes the last message out. -/
def formatStep (done : List Message) (message : Message) : List Message :=
  let m := formatted message
  match joinsTo m done with
  | some (a,b,rest) => { m with content := .str (trimQuotes (a++" "++b)) }::rest
  | none => showNull m::done

def formatMessages (messages : List Message) : List Message := (messages.foldl formatStep []).reverse

inductive Block
  | text (text : String)
  | image (mediaType data : String)
  | toolUse (id name arguments : String)
  | toolResult (toolUseId : String) (content : Content)
  deriving DecidableEq

inductive ClaudeContent
  | str (s : String)
  | blocks (bs : List Block)
  deriving DecidableEq

structure ClaudeMessage where
  role : Role
  content : ClaudeContent
  deriving DecidableEq

structure Env where
  isObject : String → Bool
  image : String → Except String (String × String)

def ClaudeContent.toBlocks : ClaudeContent → List Block
  | .str s => [.text s]
  | .blocks bs => bs

/-- A tool result goes to the user message before it, or starts one. -/
def addToolResult (messages : List ClaudeMessage) (m : Message) : List ClaudeMessage :=
  match messages with
  | last::rest =>
    if last.role = .user then
      { last with content := .blocks (last.content.toBlocks++[.toolResult m.toolCallId m.content]) }::rest
    else ⟨.user,.blocks [.toolResult m.toolCallId m.content]⟩::messages
  | [] => [⟨.user,.blocks [.toolResult m.toolCallId m.content]⟩]

def partBlock (env : Env) : Part → Except String Block
  | .text t => .ok (.text t)
  | .image url => (env.image url).map fun p => .image p.1 p.2

def Content.toParts : Content → List Part
  | .null => []
  | .str s => [.text s]
  | .parts ps => ps

/-- Tool calls whose arguments are not a map are skipped. -/
def toolUseBlocks (env : Env) (calls : List ToolCall) : List Block :=
  (calls.filter fun c => env.isObject c.arguments).map fun c => .toolUse c.id c.name c.arguments

def convertMessage (env : Env) (m : Message) : Except String ClaudeMessage :=
  match m.content,m.toolCalls with
  | .str s,none => .ok ⟨m.role,.str s⟩
  | content,calls => do
    let media ← content.toParts.mapM (partBlock env)
    return ⟨m.role,.blocks (media++toolUseBlocks env (calls.getD []))⟩

structure State where
  messages : List ClaudeMessage := []
  isFirstMessage : Bool := true
  system : List String := []

/-- A conversation that does not start with the user is given a first turn. -/
def openTurn (st : State) (role : Role) : State :=
  if st.isFirstMessage then
    { st with
      isFirstMessage := false
      messages := if role ≠ .user then ⟨.user,.blocks [.text "..."]⟩::st.messages else st.messages }
  else st

def systemTexts : Content → List String
  | .null => []
  | .str s => [s]
  | .parts ps => ps.filterMap fun
    | .text t => some t
    | .image _ => none

def convertStep (env : Env) (st : State) (m : Message) : Except String State :=
  if m.role = .system then .ok { st with system := st.system++systemTexts m.content }
  else
    let st := openTurn st m.role
    if m.role = .tool then .ok { st with messages := addToolResult st.messages m }
    else do
      let message ← convertMessage env m
      return { st with messages := message::st.messages }

inductive ResponseFormat
  | absent
  | jsonObject
  | jsonSchema (error : Option String)
  deriving DecidableEq

def jsonObjectInstruction : String :=
  "Respond with a single valid JSON object and nothing else: no prose, no code fences."

/-- The part of `applyResponseFormat` that concerns the system blocks. -/
def applyResponseFormat (format : ResponseFormat) (system : List String) : Except String (List String) :=
  match format with
  | .absent => .ok system
  | .jsonObject => .ok (system++[jsonObjectInstruction])
  | .jsonSchema none => .ok system
  | .jsonSchema (some error) => .error error

structure ClaudeRequest where
  system : List String
  messages : List ClaudeMessage
  deriving DecidableEq

def requestOpenAI2ClaudeMessage (env : Env) (format : ResponseFormat) (messages : List Message) :
    Except String ClaudeRequest := do
  let st ← (formatMessages messages).foldlM (convertStep env) {}
  let system ← applyResponseFormat format st.system
  return ⟨system,st.messages.reverse⟩

end LurusHub.ChatToClaude
