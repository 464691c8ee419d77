import LurusHub.ContentGuard
import LurusHub.PlanGrant
import Mathlib.Data.List.DropRight
import Mathlib.Data.List.Induction
import Mathlib.Data.List.MinMax
import Mathlib.Data.String.Basic

/-! Routing by decision: the guard that reads a request body, and the rewrite of its model. The rewrite
goes through a map, which writes the members sorted by name, while the decoder takes the last member
of a field in any letter case. -/
namespace LurusHub.ModelRewrite
open JsonTree List
open ContentGuard (decodesTo foldName foldRune)
open PlanGrant (trimSpace)

/-- A member of a map that is kept as the encoder writes it, sorted by name. -/
def put (m : String × Json) : Members → Members
  | [] => [m]
  | p::ps => if m.1 < p.1 then m::p::ps else if m.1 = p.1 then m::ps else p::put m ps

def decodeMap (body : Members) : Members := body.foldl (fun ps m => put m ps) []

def rewriteModel (body : Members) (model : String) : Members := put ("model",.str model) (decodeMap body)

def read (field : String) (body : Members) : Option Json := last? (decodesTo field) body

def present : Option Json → Bool
  | none | some .null | some (.arr []) | some (.obj []) => false
  | _ => true

def isEmptyString : Option Json → Bool
  | some (.str s) => s = ""
  | some .null => true
  | _ => false

def asString : Option Json → String
  | some (.str s) => s
  | _ => ""

/-- A value the decoder takes for a string field; null leaves the field empty. -/
def isText : Json → Bool
  | .str _ | .null => true
  | _ => false

/-- `strings.ToLower` as the ASCII words of the guard see it: two letters outside ASCII have one inside. -/
def lowerRune (c : Char) : Char :=
  if c = Char.ofNat 0x130 then 'i' else if c = Char.ofNat 0x212a then 'k' else c.toLower

def toLower (s : String) : List Char := s.toList.map lowerRune

/-- `(o\d+|r\d+)($|[-_])` at the start of the text. -/
def familyAt : List Char → Bool
  | [] => false
  | c::s => [ 'o','r'].contains c && !(s.takeWhile Char.isDigit).isEmpty &&
      (s.dropWhile Char.isDigit).head?.all fun d => [ '-','_'].contains d

def isReasoningModelName (model : String) : Bool :=
  familyAt (toLower model) || (toLower model).tails.any fun s =>
    ["thinking","reasoner","reasoning"].any (fun w => w.toList.isPrefixOf s) ||
      s.head?.any (fun c => [ '-','_','/'].contains c) && familyAt s.tail

def reasoningObjectSet : Option Json → Bool
  | some (.obj ms) => (decodeMap ms).any fun m => present (some m.2) && !isEmptyString (some m.2)
  | raw => present raw

def isTrue : Json → Bool
  | .bool b => b
  | _ => false

def metadataEntry (m : String × Json) : Option String :=
  let lk := toLower (trimSpace m.1)
  let lv := toLower (trimSpace (asString (some m.2)))
  if "pin:".toList.isPrefixOf lk || "pin:".toList.isPrefixOf lv then some "metadata_pin"
  else if lk = "audit:true".toList ∨ lv = "audit:true".toList then some "metadata_audit"
  else if lk = "audit".toList ∧ (isTrue m.2 ∨ lv = "true".toList) then some "metadata_audit"
  else none

/-- Go walks the map in any order, which decides only the reason that is named. -/
def metadataGuard : Option Json → Option String
  | some (.obj ms) => (decodeMap ms).findSome? metadataEntry
  | _ => none

structure RawMessage where
  role : String
  content : Option Json
  toolCalls : Option Json
  type : String

/-- The members of an object whose string fields hold strings; null is an object without members. -/
def decodeFields (strings : List String) : Json → Option Members
  | .null => some []
  | .obj ms => if ms.all fun m => !strings.contains (foldName m.1) || isText m.2 then some ms else none
  | _ => none

def rawMessage (v : Json) : Option RawMessage :=
  (decodeFields ["role","type"] v).map fun ms =>
    ⟨asString (read "role" ms),read "content" ms,read "tool_calls" ms,asString (read "type" ms)⟩

def decodeList {α : Type} (decode : Json → Option α) : Json → Option (List α)
  | .null => some []
  | .arr vs => vs.mapM decode
  | _ => none

/-- Parts of another type than text make the message non-text. -/
def plainText (content : Option Json) (partType : String) : Except String String :=
  match content with
  | none | some .null => .error "no_user_text"
  | some (.str s) => .ok s
  | some v =>
    match decodeList (decodeFields ["type","text"]) v with
    | none => .error "non_text_content"
    | some parts =>
      if parts.all fun p => [partType,"text"].contains (asString (read "type" p)) then
        .ok (parts.foldl (fun b p => (if b = "" then b else b++"\n")++asString (read "text" p)) "")
      else .error "non_text_content"

/-- The last user message, if nothing marks a later turn. -/
def lastUser (later : RawMessage → Bool) : Option RawMessage → List RawMessage → Except String RawMessage
  | none,[] => .error "no_user_text"
  | some m,[] => .ok m
  | last,m::msgs =>
    if later m then .error "not_first_turn"
    else if toLower m.role = "user".toList then lastUser later (some m) msgs
    else if ["system".toList,"developer".toList].contains (toLower m.role) then lastUser later last msgs
    else .error "not_first_turn"

def lastUserTextChat (msgs : List RawMessage) : Except String String := do
  let m ← lastUser (fun m => present m.toolCalls) none msgs
  plainText m.content "text"

def lastUserTextResponses (input : Option Json) : Except String String :=
  match input with
  | none | some .null => .error "no_user_text"
  | some (.str s) => .ok s
  | some v =>
    match decodeList rawMessage v with
    | none => .error "unreadable_body"
    | some items => do
      let m ← lastUser (fun it => !(["","message"].contains it.type)) none items
      plainText m.content "input_text"

/-- The longest prefix of whole characters within `n` bytes. -/
def truncateUTF8 : ℕ → List Char → List Char
  | _,[] => []
  | n,c::s => if c.utf8Size ≤ n then c::truncateUTF8 (n-c.utf8Size) s else []

/-- Whether the decoder takes the value for the field that the name stands for. -/
def decodes (m : String × Json) : Bool :=
  match foldName m.1 with
  | "model" => isText m.2
  | "messages" => (decodeList rawMessage m.2).isSome
  | _ => true

def userText (path : String) (body : Members) : Except String (List Char) := do
  let text ← if path.toList.rdropWhile (· = '/') = "/v1/responses".toList
    then lastUserTextResponses (read "input" body)
    else lastUserTextChat (((read "messages" body).bind (decodeList rawMessage)).getD [])
  if trimSpace text = "" then .error "no_user_text" else .ok (truncateUTF8 8192 text.toList)

def check (path : String) (sessionAffinity : Bool) (body : Members) : Except String (List Char) :=
  if ¬body.all decodes then .error "unreadable_body"
  else if ["tools","tool_choice","functions","function_call"].any fun f => present (read f body) then .error "tools"
  else if present (read "previous_response_id" body) && !isEmptyString (read "previous_response_id" body) then
    .error "previous_response_id"
  else if sessionAffinity then .error "session_affinity"
  else if present (read "reasoning_effort" body) && !isEmptyString (read "reasoning_effort" body) ||
      reasoningObjectSet (read "reasoning" body) || isReasoningModelName (asString (read "model" body)) then
    .error "reasoning"
  else match metadataGuard (read "metadata" body) with
  | some why => .error why
  | none => userText path body

/-- Of the members of one field, the last with the greatest name has the value of the last. -/
def Agrees (body : Members) : Prop :=
  ∀ m ∈ body, foldName m.1 ≠ "model" → (∀ q ∈ body, foldName q.1 = foldName m.1 → q.1 ≤ m.1) →
    last? (· = m.1) body = read (foldName m.1) body

def Sorted (ps : Members) : Prop := ps.Pairwise fun a b => a.1 < b.1

lemma mem_put {q m : String × Json} {ps : Members} (h : Sorted ps) : q ∈ put m ps ↔ q = m ∨ q ∈ ps ∧ q.1 ≠ m.1 := by
  induction ps with
  | nil => simp [put]
  | cons p ps ih =>
    obtain ⟨hp,hps⟩ := pairwise_cons.mp h
    have habove : m.1 ≤ p.1 → q ∈ ps → q.1 ≠ m.1 := fun hle hq => (hle.trans_lt (hp q hq)).ne'
    rw [put]
    split_ifs with hlt heq
    · have hq : q ∈ p::ps → q.1 ≠ m.1 := fun hq => by
        rcases mem_cons.mp hq with rfl | hq
        · exact hlt.ne'
        · exact habove hlt.le hq
      rw [mem_cons,and_iff_left_of_imp hq]
    · simp only [mem_cons,or_and_right]
      refine or_congr_right ⟨fun hq => .inr ⟨hq,habove heq.le hq⟩,?_⟩
      rintro (⟨rfl,hne⟩ | hq)
      · exact absurd heq.symm hne
      · exact hq.1
    · have hpm : q = p → q.1 ≠ m.1 := fun hq => hq ▸ Ne.symm heq
      simp only [mem_cons,ih hps]
      tauto

lemma Sorted.put {m : String × Json} {ps : Members} (h : Sorted ps) : Sorted (put m ps) := by
  induction ps with
  | nil => simp [ModelRewrite.put,Sorted]
  | cons p ps ih =>
    obtain ⟨hp,hps⟩ := pairwise_cons.mp h
    rw [ModelRewrite.put]
    split_ifs with hlt heq
    · exact pairwise_cons.mpr ⟨forall_mem_cons.mpr ⟨hlt,fun q hq => hlt.trans (hp q hq)⟩,h⟩
    · exact pairwise_cons.mpr ⟨fun q hq => heq ▸ hp q hq,hps⟩
    · refine pairwise_cons.mpr ⟨fun q hq => ?_,ih hps⟩
      rcases (mem_put hps).mp hq with rfl | hq
      · exact lt_of_le_of_ne (not_lt.mp hlt) (Ne.symm heq)
      · exact hp q hq.1

section
variable {accepts : String → Bool} {m : String × Json} {ps ms body : Members}

lemma last?_eq_none_iff : last? accepts ps = none ↔ ∀ q ∈ ps, accepts q.1 = false := by
  induction ps with
  | nil => simp [last?]
  | cons p ps ih => simp [last?,ih,and_comm]

lemma last?_put_of_not (h : accepts m.1 = false) : last? accepts (put m ps) = last? accepts ps := by
  induction ps with
  | nil => simp [put,last?,h]
  | cons p ps ih =>
    rw [put]
    split_ifs with hlt heq
    · simp [last?,h]
    · simp [last?,h,← heq]
    · simp [last?,ih]

theorem last?_of_greatest (hs : Sorted ps) (hm : m ∈ ps) (h : accepts m.1) (hge : ∀ q ∈ ps, accepts q.1 → q.1 ≤ m.1) :
    last? accepts ps = some m.2 := by
  induction ps with
  | nil => simp at hm
  | cons p ps ih =>
    obtain ⟨hp,hps⟩ := pairwise_cons.mp hs
    rcases mem_cons.mp hm with rfl | hm
    · have hnone : last? accepts ps = none := last?_eq_none_iff.mpr fun q hq =>
        Bool.eq_false_iff.mpr fun hq' => not_lt.mpr (hge q (mem_cons_of_mem _ hq) hq') (hp q hq)
      simp [last?,hnone,h]
    · simp [last?,ih hps hm fun q hq => hge q (mem_cons_of_mem p hq)]

lemma last?_concat : last? accepts (ps++[m]) = if accepts m.1 then some m.2 else last? accepts ps := by
  induction ps with
  | nil => simp [last?]
  | cons p ps ih =>
    rw [cons_append,last?,ih]
    split <;> simp [last?]

lemma decodeMap_concat : decodeMap (ms++[m]) = put m (decodeMap ms) := by
  simp [decodeMap]

lemma sorted_decodeMap (body : Members) : Sorted (decodeMap body) := by
  induction body using reverseRecOn with
  | nil => exact .nil
  | append_singleton ms m ih =>
    rw [decodeMap_concat]
    exact ih.put

lemma mem_decodeMap (name : String) (v : Json) : (name,v) ∈ decodeMap body ↔ last? (· = name) body = some v := by
  induction body using reverseRecOn with
  | nil => simp [decodeMap,last?]
  | append_singleton ms m ih =>
    rw [decodeMap_concat,mem_put (sorted_decodeMap ms),ih,last?_concat]
    by_cases hm : m.1 = name
    · simp [hm,Prod.ext_iff,eq_comm]
    · simp [hm,Prod.ext_iff,Ne.symm hm]

lemma mem_of_mem_decodeMap {q : String × Json} (h : q ∈ decodeMap body) : q ∈ body := by
  induction body using reverseRecOn with
  | nil => exact h
  | append_singleton ms m ih =>
    rw [decodeMap_concat] at h
    rcases (mem_put (sorted_decodeMap ms)).mp h with rfl | h
    · simp
    · exact mem_append_left _ (ih h.1)

lemma read_decodeMap (hm : m ∈ body) (hge : ∀ q ∈ body, foldName q.1 = foldName m.1 → q.1 ≤ m.1) :
    read (foldName m.1) (decodeMap body) = last? (· = m.1) body := by
  cases hlast : last? (· = m.1) body with
  | none => simpa using last?_eq_none_iff.mp hlast m hm
  | some v =>
    exact last?_of_greatest (m:=(m.1,v)) (sorted_decodeMap body) ((mem_decodeMap m.1 v).mpr hlast)
      (decide_eq_true rfl) fun q hq hq' => hge q (mem_of_mem_decodeMap hq) (of_decide_eq_true hq')

end

lemma le_foldRune (h : foldRune c ≠ 's') (h' : foldRune c ≠ 'k') : c ≤ foldRune c := by
  have hs : c ≠ Char.ofNat 0x17f := fun hc => h (if_pos hc)
  have hk : c ≠ Char.ofNat 0x212a := fun hc => h' (by rw [foldRune,if_neg hs,if_pos hc])
  rw [foldRune,if_neg hs,if_neg hk]
  delta Char.toLower
  split
  · next hc =>
    have hz : c.val.toNat ≤ 90 := UInt32.le_iff_toNat_le.mp hc.2
    have h32 : ('a'.val- 'A'.val).toNat = 32 := rfl
    rw [Char.le_def,UInt32.le_iff_toNat_le,UInt32.toNat_add,h32]
    omega
  · exact le_rfl

lemma le_map_foldRune {cs : List Char} (h : ∀ d ∈ cs.map foldRune, d ≠ 's' ∧ d ≠ 'k') : cs ≤ cs.map foldRune := by
  induction cs with
  | nil => exact le_rfl
  | cons c cs ih =>
    simp only [map_cons,forall_mem_cons] at h
    rcases (le_foldRune h.1.1 h.1.2).lt_or_eq with hlt | heq
    · exact le_of_lt (Lex.rel hlt)
    · rw [map_cons,← heq]
      exact cons_le_cons c (ih h.2)

lemma le_model (h : foldName name = "model") : name ≤ "model" := by
  have hl : name.toList.map foldRune = "model".toList := String.ofList_eq.mp h
  rw [String.le_iff_toList_le,← hl]
  exact le_map_foldRune (hl ▸ by simp)

lemma agrees_iff (body : Members) :
    Agrees body ↔ ∀ field, field ≠ "model" → read field (decodeMap body) = read field body := by
  constructor
  · intro h field hf
    cases hmax : (body.filter fun m => foldName m.1 = field).argmax Prod.fst with
    | none =>
      have hno : ∀ q ∈ body, decodesTo field q.1 = false := fun q hq => by
        simpa [decodesTo] using filter_eq_nil_iff.mp (argmax_eq_none.mp hmax) q hq
      rw [read,read,last?_eq_none_iff.mpr hno,last?_eq_none_iff.mpr fun q hq => hno q (mem_of_mem_decodeMap hq)]
    | some m =>
      obtain ⟨hm,hname⟩ := mem_filter.mp (argmax_mem hmax)
      obtain rfl : foldName m.1 = field := of_decide_eq_true hname
      have hge : ∀ q ∈ body, foldName q.1 = foldName m.1 → q.1 ≤ m.1 := fun q hq hq' =>
        le_of_mem_argmax (mem_filter.mpr ⟨hq,decide_eq_true hq'⟩) hmax
      rw [read_decodeMap hm hge,h m hm hf hge]
  · intro h m hm hf hge
    rw [← read_decodeMap hm hge,h _ hf]

lemma read_rewriteModel {body : Members} {field t : String} (hf : field ≠ "model") :
    read field (rewriteModel body t) = read field (decodeMap body) := by
  have hm : decodesTo field "model" = false := by
    simpa [decodesTo,show foldName "model" = "model" by decide] using hf.symm
  rw [rewriteModel,read,last?_put_of_not hm,read]

lemma read_model {body : Members} {t : String} : read "model" (rewriteModel body t) = some (.str t) := by
  have hs := sorted_decodeMap body
  exact last?_of_greatest hs.put ((mem_put hs).mpr (.inl rfl)) (show decodesTo "model" "model" by decide)
    fun _ _ hq => le_model (of_decide_eq_true hq)

lemma decodes_rewriteModel {body : Members} {t : String} (h : body.all decodes) :
    (rewriteModel body t).all decodes := by
  rw [all_eq_true] at h ⊢
  intro q hq
  rcases (mem_put (sorted_decodeMap body)).mp hq with rfl | hq
  · simp [decodes,isText,show foldName "model" = "model" by decide]
  · exact h q (mem_of_mem_decodeMap hq.1)

lemma model_of_check {path : String} {affinity : Bool} {body : Members} {u : List Char}
    (h : check path affinity body = .ok u) : isReasoningModelName (asString (read "model" body)) = false := by
  rw [check] at h
  split_ifs at h with hb htools hprev haff hr
  simp only [Bool.or_eq_true,not_or,Bool.not_eq_true] at hr
  exact hr.2

lemma check_rewriteModel {path t : String} {affinity : Bool} {body : Members} {u : List Char} (h : Agrees body)
    (ht : isReasoningModelName t = false) (hc : check path affinity body = .ok u) :
    check path affinity (rewriteModel body t) = .ok u := by
  have hread : ∀ field, field ≠ "model" → read field (rewriteModel body t) = read field body := fun field hf => by
    rw [read_rewriteModel hf,(agrees_iff body).mp h field hf]
  have htext : userText path (rewriteModel body t) = userText path body := by
    rw [userText,userText,hread "input" (by decide),hread "messages" (by decide)]
  simp only [check,any_cons,any_nil,Bool.or_false] at hc ⊢
  simp (disch := decide) only [hread,htext,read_model,asString,ht,Bool.or_false]
  split_ifs at hc with hb htools hprev haff hr
  rw [Bool.or_eq_true,not_or] at hr
  rw [if_neg (not_not.mpr (decodes_rewriteModel hb)),if_neg htools,if_neg hprev,if_neg haff,if_neg hr.1]
  exact hc

/-- The model alone changes exactly if the members of each other field agree. -/
theorem rewrite_changes_model_iff (body : Members) (t : String) :
    (read "model" (rewriteModel body t) = some (.str t) ∧
      (∀ field, field ≠ "model" → read field (rewriteModel body t) = read field body) ∧
      ∀ path affinity u, check path affinity body = .ok u → check path affinity (rewriteModel body t) = .ok u) ↔
    Agrees body ∧ (isReasoningModelName t → ∀ path affinity u, check path affinity body ≠ .ok u) := by
  constructor
  · rintro ⟨hmodel,hread,hcheck⟩
    refine ⟨(agrees_iff body).mpr fun field hf => ?_,fun ht path affinity u hc => ?_⟩
    · rw [← read_rewriteModel (t:=t) hf,hread field hf]
    · have hno := model_of_check (hcheck path affinity u hc)
      rw [hmodel,asString,ht] at hno
      cases hno
  · rintro ⟨h,ht⟩
    refine ⟨read_model,fun field hf => ?_,fun path affinity u hc => ?_⟩
    · rw [read_rewriteModel hf,(agrees_iff body).mp h field hf]
    · exact check_rewriteModel h (Bool.eq_false_iff.mpr fun hname => ht hname path affinity u hc) hc

/-- The decoder reads the empty `Tools` of this body, and the full `tools` of the rewritten one. -/
def twoTools : Members :=
  [("model",.str "a"),("input",.str "hi"),("tools",.arr [.str "f"]),("Tools",.arr [])]

theorem twoTools_changes :
    present (read "tools" twoTools) = false ∧ present (read "tools" (rewriteModel twoTools "b")) = true ∧
    (check "/v1/responses" false twoTools).isOk ∧
    ¬(check "/v1/responses" false (rewriteModel twoTools "b")).isOk := by
  decide +kernel

end LurusHub.ModelRewrite
