import LurusHub.JsonTree
import Mathlib.Data.Int.Notation

/-! The content rules of a tenant. `Ruleset.Apply` reads the text slots of a body with one JSON
reader; the relay decodes the forwarded body with another. A body is a JSON tree, so it is valid;
paths are lists of steps. -/
namespace LurusHub.ContentGuard

open JsonTree

inductive Format where
  | openAIChat
  | responses
  | claude
  | gemini
  | systemOne
  deriving DecidableEq

inductive Role where
  | system
  | user
  | assistant
  | other
  deriving DecidableEq

inductive RoleScope where
  | any
  | system
  | user
  | assistant
  deriving DecidableEq

inductive Kind where
  | mask
  | reject
  deriving DecidableEq

inductive Mode where
  | observe
  | enforce
  deriving DecidableEq

structure CompiledRule where
  id : ℤ
  roleScope : RoleScope
  kind : Kind
  mode : Mode
  builtin : String := ""
  find : String → List (ℕ × ℕ)
  repl : String := "[MASKED]"
  find_empty : find "" = []

structure Hit where
  ruleId : ℤ
  kind : Kind
  mode : Mode
  builtin : String
  count : ℕ
  deriving DecidableEq

structure Result where
  body : Json
  changed : Bool := false
  rejected : Option ℤ := none
  hits : List Hit := []

structure Slot where
  path : Path
  role : Role
  text : String

def roleMatches (scope : RoleScope) (role : Role) : Bool :=
  match scope,role with
  | .any,_ | .system,.system | .user,.user | .assistant,.assistant => true
  | _,_ => false

/-- The text from `last` on with the spans replaced; a span that starts earlier is skipped. -/
def maskFrom (s repl : List Char) : ℕ → List (ℕ × ℕ) → List Char
  | last,[] => s.drop last
  | last,sp::spans =>
    if sp.1 < last then maskFrom s repl last spans
    else (s.take sp.1).drop last++repl++maskFrom s repl sp.2 spans

def maskSpans (s : String) (spans : List (ℕ × ℕ)) (repl : String) : String :=
  String.ofList (maskFrom s.toList repl.toList 0 spans)

/-- Count the matches of a rule; hits stand in the order of their first match. -/
def record (r : CompiledRule) (n : ℕ) : List Hit → List Hit
  | [] => [⟨r.id,r.kind,r.mode,r.builtin,n⟩]
  | h::hits => if h.ruleId = r.id then {h with count := h.count+n}::hits else h::record r n hits

structure SlotState where
  text : String
  changed : Bool := false
  hits : List Hit

def applyRule (role : Role) (st : SlotState) (r : CompiledRule) : Except (ℤ × List Hit) SlotState :=
  let spans := r.find st.text
  if roleMatches r.roleScope role = false ∨ spans = [] then .ok st
  else
    let hits := record r spans.length st.hits
    match r.mode,r.kind with
    | .observe,_ => .ok {st with hits := hits}
    | .enforce,.reject => .error (r.id,hits)
    | .enforce,.mask => .ok ⟨maskSpans st.text spans r.repl,true,hits⟩

def applyRules (rules : List CompiledRule) (role : Role) (st : SlotState) : Except (ℤ × List Hit) SlotState :=
  rules.foldlM (applyRule role) st

def applySlots (rules : List CompiledRule) (body : Json) : List Slot → Json → Bool → List Hit → Result
  | [],out,changed,hits => ⟨out,changed,none,hits⟩
  | sl::slots,out,changed,hits =>
    match applyRules rules sl.role ⟨sl.text,false,hits⟩ with
    | .error (id,hits) => ⟨body,changed,some id,hits⟩
    | .ok st =>
      if st.changed then applySlots rules body slots (setAt sl.path (.str st.text) out) true st.hits
      else applySlots rules body slots out changed st.hits

def get (name : String) : Json → Option Json
  | .obj ms => first? name ms
  | _ => none

def normalizeRole (r : String) : Role :=
  if r = "system" ∨ r = "developer" then .system
  else if r = "assistant" ∨ r = "model" then .assistant
  else if r = "user" ∨ r = "" then .user
  else .other

/-- The normalized role of a role member; a missing one and `null` print as the empty text. -/
def roleOf : Option Json → Role
  | none => .user
  | some .null => .user
  | some (.str r) => normalizeRole r
  | some _ => .other

/-- A slot is added for a text that is not empty. -/
def addText (role : Role) (text : String) : List Slot := if text = "" then [] else [⟨[],role,text⟩]

def within (step : Step) (slots : List Slot) : List Slot :=
  slots.map fun sl => {sl with path := step::sl.path}

def collectText (name : String) (role : Role) (v : Json) : List Slot :=
  match get name v with
  | some (.str t) => within (.key name) (addText role t)
  | _ => []

/-- A string, or an array of strings and text parts. -/
def collectTextValue (role : Role) : Option Json → List Slot
  | some (.str s) => addText role s
  | some (.arr vs) => (forEach (.arr vs)).flatMap fun p => within p.1 (match p.2 with
    | .str s => addText role s
    | e => collectText "text" role e)
  | _ => []

def collectPart (toolResults : Bool) (role : Role) (part : Json) : List Slot :=
  collectText "text" role part++
    match toolResults,get "type" part with
    | true,some (.str "tool_result") => within (.key "content") (collectTextValue role (get "content" part))
    | _,_ => []

def collectContent (toolResults : Bool) (role : Role) : Option Json → List Slot
  | none => []
  | some (.str s) => addText role s
  | some content => (forEach content).flatMap fun p => within p.1 (collectPart toolResults role p.2)

def collectMessage (toolResults : Bool) (m : Json) : List Slot :=
  within (.key "content") (collectContent toolResults (roleOf (get "role" m)) (get "content" m))

def collectMessages (toolResults : Bool) (root : Json) : List Slot :=
  match get "messages" root with
  | none => []
  | some messages => within (.key "messages")
    ((forEach messages).flatMap fun p => within p.1 (collectMessage toolResults p.2))

def collectGeminiParts (role : Role) : Option Json → List Slot
  | none => []
  | some parts => (forEach parts).flatMap fun p => within p.1 (collectText "text" role p.2)

def collectGeminiContent (item : Json) : List Slot :=
  within (.key "parts")
    (collectGeminiParts (match get "role" item with
      | some (.str "model") => .assistant
      | _ => .user) (get "parts" item))

def collectInput : Option Json → List Slot
  | some (.str s) => addText .user s
  | some (.arr vs) => (forEach (.arr vs)).flatMap fun p => within p.1 (match p.2 with
    | .str s => addText .user s
    | item => within (.key "content") (collectTextValue (roleOf (get "role" item)) (get "content" item)))
  | _ => []

def collectStrings : Json → List Slot
  | .str s => addText .user s
  | .arr vs => collectElements 0 vs
  | .obj ms => collectMembers ms
  | _ => []
where
  collectElements : ℕ → List Json → List Slot
  | _,[] => []
  | i,v::vs => within (.index i) (collectStrings v)++collectElements (i+1) vs
  collectMembers : Members → List Slot
  | [] => []
  | (name,v)::ms => within (.key name) (collectStrings v)++collectMembers ms

def collectStringsOf (name : String) (v : Json) : List Slot :=
  match get name v with
  | some w => within (.key name) (collectStrings w)
  | none => []

def collectSystemOne (root : Json) : List Slot :=
  collectStringsOf "state" root++
    match get "questions" root with
    | some (.obj questions) => within (.key "questions") ((forEach (.obj questions)).flatMap fun q =>
        within q.1 (collectStringsOf "instructions" q.2++collectStringsOf "criteria" q.2))
    | _ => []

def collectSlots (format : Format) (root : Json) : List Slot :=
  match format with
  | .openAIChat =>
    collectMessages false root++within (.key "prompt") (collectTextValue .user (get "prompt" root))
  | .claude =>
    within (.key "system") (collectTextValue .system (get "system" root))++collectMessages true root
  | .responses =>
    within (.key "instructions") (collectTextValue .system (get "instructions" root))++
      within (.key "input") (collectInput (get "input" root))
  | .gemini =>
    (["systemInstruction","system_instruction"].flatMap fun key => within (.key key)
      (within (.key "parts") (collectGeminiParts .system ((get key root).bind (get "parts")))))++
      match get "contents" root with
      | none => []
      | some contents => within (.key "contents")
        ((forEach contents).flatMap fun p => within p.1 (collectGeminiContent p.2))
  | .systemOne => collectSystemOne root

/-- `Ruleset.Apply`. -/
def apply (rules : List CompiledRule) (format : Format) (body : Json) : Result :=
  if rules = [] then {body := body} else applySlots rules body (collectSlots format body) body false []

/-! The relay's decoder, `encoding/json` into the chat request: a member goes to the field whose
name it is up to letter case, the last such member stays, and a content is decoded untyped. Of a
body that the decoder refuses nothing is read here. -/

/-- The letter that stands for its case variants; two letters outside ASCII have one inside. -/
def foldRune (c : Char) : Char :=
  if c = Char.ofNat 0x17f then 's' else if c = Char.ofNat 0x212a then 'k' else c.toLower

def foldName (name : String) : String := String.ofList (name.toList.map foldRune)

def decodesTo (field name : String) : Bool := foldName name = field

def asText : Json → List String
  | .str t => [t]
  | _ => []

def partText : Json → List String
  | .obj ms =>
    if (last? (· = "type") ms).elim [] asText = ["text"] then (last? (· = "text") ms).elim [] asText else []
  | _ => []

def contentTexts : Json → List String
  | .str s => [s]
  | .arr parts => parts.flatMap partText
  | _ => []

def messageTexts : Json → List String
  | .obj ms => (last? (decodesTo "content") ms).elim [] contentTexts
  | _ => []

def messagesTexts : Json → List String
  | .arr messages => messages.flatMap messageTexts
  | _ => []

/-- The texts the relay reads of the messages of a chat request. -/
def decodedTexts : Json → List String
  | .obj ms => (last? (decodesTo "messages") ms).elim [] messagesTexts
  | _ => []

end LurusHub.ContentGuard
