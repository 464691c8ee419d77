import LurusHub.ContentGuard

/-! Which texts escape the content rules. `reads` lists the texts the relay decodes, each with the
role under which the guard visits it, if any. A forwarded body holds the same texts, the visited
ones masked. -/
namespace LurusHub.ContentGuard

open JsonTree List

def maskStep (role : Role) (st : String × Bool) (r : CompiledRule) : String × Bool :=
  if roleMatches r.roleScope role ∧ r.mode = .enforce ∧ r.kind = .mask ∧ r.find st.1 ≠ [] then
    (maskSpans st.1 (r.find st.1) r.repl,true)
  else st

def masked (rules : List CompiledRule) (role : Role) (text : String) : String :=
  (rules.foldl (maskStep role) (text,false)).1

def edit (rules : List CompiledRule) (sl : Slot) : List (Path × Json) :=
  if (rules.foldl (maskStep sl.role) (sl.text,false)).2 then [(sl.path,.str (masked rules sl.role sl.text))] else []

def edits (rules : List CompiledRule) (slots : List Slot) : List (Path × Json) := slots.flatMap (edit rules)

lemma edits_cons : edits rules (sl::slots) = edit rules sl++edits rules slots := flatMap_cons

section
variable {rules before after : List CompiledRule} {rule : CompiledRule} {role : Role} {text : String}

variable {st' st : SlotState}

lemma applyRule_ok (h : applyRule role st rule = .ok st') :
    (st'.text,st'.changed) = maskStep role (st.text,st.changed) rule ∧
      (roleMatches rule.roleScope role → rule.kind = .reject → rule.mode = .enforce → rule.find st.text = []) := by
  by_cases hskip : roleMatches rule.roleScope role = false ∨ rule.find st.text = []
  · simp only [applyRule,hskip,if_true,Except.ok.injEq] at h
    subst h
    rcases hskip with hrole | hspans
    · simp [maskStep,hrole]
    · simp [maskStep,hspans]
  · obtain ⟨hrole,hspans⟩ := not_or.mp hskip
    simp only [applyRule,hskip,if_false] at h
    cases hmode : rule.mode with
    | observe =>
      simp only [hmode,Except.ok.injEq] at h
      subst h
      simp [maskStep,hmode]
    | enforce =>
      cases hkind : rule.kind with
      | reject => simp [hmode,hkind] at h
      | mask =>
        simp only [hmode,hkind,Except.ok.injEq] at h
        subst h
        simp [maskStep,hmode,hkind,hspans,hrole]

lemma foldl_maskStep_append (st : String × Bool) :
    (before++after).foldl (maskStep role) st = after.foldl (maskStep role) (before.foldl (maskStep role) st) :=
  foldl_append

theorem maskStep_fst (st : String × Bool) : (maskStep role st rule).1 = (maskStep role (st.1,false) rule).1 := by
  unfold maskStep
  split <;> rfl

lemma foldl_maskStep_fst (st : String × Bool) :
    (rules.foldl (maskStep role) st).1 = masked rules role st.1 := by
  induction rules generalizing st with
  | nil => rfl
  | cons r rules ih =>
    rw [masked,foldl_cons,foldl_cons,ih,ih (maskStep role (st.1,false) r),maskStep_fst]

lemma masked_append : masked (before++after) role text = masked after role (masked before role text) := by
  rw [masked,foldl_maskStep_append,foldl_maskStep_fst]
  rfl

lemma masked_cons_reject (hkind : rule.kind = .reject) :
    masked (rule::after) role text = masked after role text := by
  simp [masked,maskStep,hkind]

lemma maskStep_unchanged {st : String × Bool} (h : (maskStep role st rule).2 = false) :
    maskStep role st rule = st := by
  unfold maskStep at h ⊢
  split
  · next hmask => simp [hmask] at h
  · rfl

lemma foldl_maskStep_unchanged {st : String × Bool} (h : (rules.foldl (maskStep role) st).2 = false) :
    rules.foldl (maskStep role) st = st := by
  induction rules generalizing st with
  | nil => rfl
  | cons r rules ih =>
    have hrest := ih h
    rw [foldl_cons,hrest] at h
    rw [foldl_cons,hrest,maskStep_unchanged h]

lemma masked_empty : masked rules role "" = "" := by
  induction rules with
  | nil => rfl
  | cons r rules ih =>
    have hstep : maskStep role ("",false) r = ("",false) := by simp [maskStep,r.find_empty]
    rw [masked,foldl_cons,hstep]
    exact ih

theorem applyRules_ok (h : applyRules rules role st = .ok st') :
    (st'.text,st'.changed) = rules.foldl (maskStep role) (st.text,st.changed) := by
  induction rules generalizing st with
  | nil =>
    cases h
    rfl
  | cons r rules ih =>
    simp only [applyRules,foldlM_cons] at h
    cases hr : applyRule role st r with
    | error e =>
      rw [hr] at h
      cases h
    | ok st₁ =>
      rw [hr] at h
      rw [ih h,(applyRule_ok hr).1,foldl_cons]

lemma applyRules_passed (h : applyRules (before++rule::after) role st = .ok st')
    (hrole : roleMatches rule.roleScope role) (hkind : rule.kind = .reject) (hmode : rule.mode = .enforce) :
    rule.find (masked before role st.text) = [] := by
  simp only [applyRules,foldlM_append,foldlM_cons] at h
  cases hb : before.foldlM (applyRule role) st with
  | error e =>
    rw [hb] at h
    cases h
  | ok st₁ =>
    rw [hb] at h
    cases hr : applyRule role st₁ rule with
    | error e =>
      simp only [bind,Except.bind,hr] at h
      cases h
    | ok st₂ =>
      have htext := congrArg Prod.fst (applyRules_ok hb)
      rw [foldl_maskStep_fst] at htext
      rw [← htext]
      exact (applyRule_ok hr).2 hrole hkind hmode

lemma applySlots_accepted {body : Json} {slots : List Slot} {out : Json} {changed : Bool}
    (h : (applySlots rules body slots out changed hits).rejected = none) :
    (applySlots rules body slots out changed hits).body = setAll (edits rules slots) out ∧
      ∀ sl ∈ slots, ∃ hits st, applyRules rules sl.role ⟨sl.text,false,hits⟩ = .ok st := by
  induction slots generalizing out changed hits with
  | nil => simp [applySlots,edits]
  | cons sl slots ih =>
    cases hr : applyRules rules sl.role ⟨sl.text,false,hits⟩ with
    | error e => simp [applySlots,hr] at h
    | ok st =>
      have hst := applyRules_ok hr
      have htext : st.text = masked rules sl.role sl.text := congrArg Prod.fst hst
      have hcha := congrArg Prod.snd hst
      simp only [applySlots,hr] at h ⊢
      by_cases hc : st.changed = true
      · simp only [hc,if_true] at h ⊢
        have hedit : edit rules sl = [(sl.path,.str st.text)] := by
          simp only at hcha
          simp [edit,← hcha,hc,htext]
        have hrest := ih h
        refine ⟨?_,forall_mem_cons.mpr ⟨⟨hits,st,hr⟩,hrest.2⟩⟩
        rw [hrest.1,edits_cons,hedit]
        rfl
      · simp only [hc] at h ⊢
        have hedit : edit rules sl = [] := by
          simp only at hcha
          simp [edit,← hcha,hc]
        have hrest := ih h
        refine ⟨?_,forall_mem_cons.mpr ⟨⟨hits,st,hr⟩,hrest.2⟩⟩
        simpa [edits_cons,hedit] using hrest.1

lemma edit_within : edit rules {sl with path := step::sl.path} = under step (edit rules sl) := by
  unfold edit under
  split <;> rfl

lemma edits_within : edits rules (within step slots) = under step (edits rules slots) := by
  induction slots with
  | nil => rfl
  | cons sl slots ih =>
    have hcons : within step (sl::slots) = {sl with path := step::sl.path}::within step slots := rfl
    rw [hcons,edits_cons,edits_cons,edit_within,ih]
    simp [under]

lemma edits_append : edits rules (slots++slots') = edits rules slots++edits rules slots' :=
  flatMap_append

lemma edits_forEach (collect : Json → List Slot) :
    edits rules ((forEach v).flatMap fun p => within p.1 (collect p.2)) =
      (forEach v).flatMap fun p => under p.1 (edits rules (collect p.2)) := by
  induction forEach v with
  | nil => rfl
  | cons p ps ih => rw [flatMap_cons,flatMap_cons,edits_append,edits_within,ih]

lemma setAll_addText : setAll (edits rules (addText role text)) (.str text) = .str (masked rules role text) := by
  by_cases htext : text = ""
  · simp [addText,htext,edits,masked_empty]
  · simp only [addText,htext,if_false,edits,flatMap_singleton,edit]
    split
    · rfl
    · next hsame =>
      rw [masked,foldl_maskStep_unchanged (by simpa using hsame)]
      rfl

end

structure Read where
  text : String
  visited : Option Role

def Read.final (rules : List CompiledRule) (rd : Read) : String :=
  rd.visited.elim rd.text fun role => masked rules role rd.text

def partReads (seen : Option Role) : Json → List Read
  | .obj ms =>
    if (last? (· = "type") ms).elim [] asText = ["text"] then
      (taken "text" (· = "text") ms).elim [] fun t => (asText t.2).map (⟨·,if t.1 then seen else none⟩)
    else []
  | _ => []

def contentReads (seen : Option Role) : Json → List Read
  | .str s => [⟨s,seen⟩]
  | .arr parts => parts.flatMap (partReads seen)
  | _ => []

def messageReads (seen : Bool) : Json → List Read
  | .obj ms => (taken "content" (decodesTo "content") ms).elim [] fun t =>
    contentReads (if seen && t.1 then some (roleOf (first? "role" ms)) else none) t.2
  | _ => []

def messagesReads (seen : Bool) : Json → List Read
  | .arr messages => messages.flatMap (messageReads seen)
  | _ => []

/-- The texts the relay decodes from a body. The guard visits those taken from the first member of
exactly the field's name, at every level. -/
def reads : Json → List Read
  | .obj ms => (taken "messages" (decodesTo "messages") ms).elim [] fun t => messagesReads t.1 t.2
  | _ => []

section
variable {rules : List CompiledRule} {role : Role}

lemma partText_eq (part : Json) : partText part = (partReads none part).map (Read.final rules) := by
  cases part with
  | obj ms =>
    have htaken : (taken "text" (· = "text") ms).map Prod.snd = last? (· = "text") ms := taken_snd
    simp only [partText,partReads,← htaken]
    split
    · cases taken "text" (· = "text") ms <;> simp [Function.comp_def,Read.final]
    · rfl
  | null | bool b | num n | str s | arr vs => rfl

def maskStr (rules : List CompiledRule) (role : Role) : Json → Json
  | .str t => .str (masked rules role t)
  | v => v

lemma asText_maskStr : asText (maskStr rules role v) = (asText v).map (masked rules role) := by
  cases v <;> rfl

lemma setAll_collectText : setAll (edits rules (collectText name role (.obj ms))) (.obj ms) =
      .obj (modifyFirst name (maskStr rules role) ms) := by
  cases hfirst : first? name ms with
  | none => simp [collectText,get,hfirst,edits,modifyFirst_of_first?_none hfirst]
  | some v =>
    cases v with
    | str t =>
      simp only [collectText,get,hfirst,edits_within,setAll_under_key]
      rw [modifyFirst_congr hfirst (g:=maskStr rules role) setAll_addText]
    | null | bool b | num n | arr vs | obj ms' =>
      simp only [collectText,get,hfirst,edits,flatMap_nil,setAll_nil]
      rw [modifyFirst_congr hfirst (f:=maskStr rules role) (g:=id) rfl,modifyFirst_id]

lemma partText_edited (part : Json) :
    partText (setAll (edits rules (collectPart false role part)) part) =
      (partReads (some role) part).map (Read.final rules) := by
  cases part with
  | obj ms =>
    have hslots : collectPart false role (.obj ms) = collectText "text" role (.obj ms) := by simp [collectPart]
    have htype : last? (· = "type") (modifyFirst "text" (maskStr rules role) ms) = last? (· = "type") ms :=
      last?_modifyFirst_of_not rfl
    rw [hslots,setAll_collectText]
    simp only [partText,partReads,htype,last?_modifyFirst]
    split
    · cases taken "text" (· = "text") ms with
      | none => rfl
      | some t =>
        rcases t with ⟨b,v⟩
        cases b <;> simp [Function.comp_def,Read.final,asText_maskStr]
    · rfl
  | null | bool b | num n | str s | arr vs => rfl

lemma contentTexts_eq : contentTexts content = (contentReads none content).map (Read.final rules) := by
  cases content with
  | arr parts =>
    simp only [contentTexts,contentReads,map_flatMap]
    congr 1
    exact funext partText_eq
  | null | bool b | num n | str s | obj ms => rfl

lemma contentTexts_edited :
    contentTexts (setAll (edits rules (collectContent false role (some content))) content) =
      (contentReads (some role) content).map (Read.final rules) := by
  cases content with
  | str s =>
    simp only [collectContent,setAll_addText]
    rfl
  | arr parts =>
    simp only [collectContent,edits_forEach]
    rw [setAll_elements fun part => edits rules (collectPart false role part)]
    simp only [contentTexts,contentReads,map_flatMap,flatMap_map]
    congr 1
    exact funext partText_edited
  | obj ms =>
    simp only [collectContent,edits_forEach]
    obtain ⟨ms',hobj⟩ := setAll_members ms fun p => edits rules (collectPart false role p.2)
    rw [hobj]
    rfl
  | null | bool b | num n => rfl

lemma messageTexts_eq (message : Json) :
    messageTexts message = (messageReads false message).map (Read.final rules) := by
  cases message with
  | obj ms =>
    have htaken : (taken "content" (decodesTo "content") ms).map Prod.snd = last? (decodesTo "content") ms := taken_snd
    simp only [messageTexts,messageReads,← htaken]
    cases taken "content" (decodesTo "content") ms with
    | none => rfl
    | some t => exact contentTexts_eq
  | null | bool b | num n | str s | arr vs => rfl

lemma messageTexts_edited (message : Json) :
    messageTexts (setAll (edits rules (collectMessage false message)) message) =
      (messageReads true message).map (Read.final rules) := by
  cases message with
  | obj ms =>
    simp only [collectMessage,get,edits_within,setAll_under_key,messageTexts,messageReads,last?_modifyFirst]
    cases htaken : taken "content" (decodesTo "content") ms with
    | none => rfl
    | some t =>
      rcases t with ⟨b,v⟩
      cases b with
      | false => exact contentTexts_eq
      | true =>
        rw [first?_of_taken htaken]
        exact contentTexts_edited
  | null | bool b | num n | str s | arr vs => rfl

lemma messagesTexts_eq :
    messagesTexts msgs = (messagesReads false msgs).map (Read.final rules) := by
  cases msgs with
  | arr vs =>
    simp only [messagesTexts,messagesReads,map_flatMap]
    congr 1
    exact funext messageTexts_eq
  | null | bool b | num n | str s | obj ms => rfl

def collectArray (messages : Json) : List Slot :=
  (forEach messages).flatMap fun p => within p.1 (collectMessage false p.2)

lemma messagesTexts_edited : messagesTexts (setAll (edits rules (collectArray msgs)) msgs) =
      (messagesReads true msgs).map (Read.final rules) := by
  rw [collectArray,edits_forEach]
  cases msgs with
  | arr vs =>
    rw [setAll_elements fun message => edits rules (collectMessage false message)]
    simp only [messagesTexts,messagesReads,map_flatMap,flatMap_map]
    congr 1
    exact funext messageTexts_edited
  | obj ms =>
    obtain ⟨ms',hobj⟩ := setAll_members ms fun p => edits rules (collectMessage false p.2)
    rw [hobj]
    rfl
  | null | bool b | num n | str s => rfl

lemma collectSlots_openAIChat : collectSlots .openAIChat (.obj ms) =
    within (.key "messages") ((first? "messages" ms).elim [] collectArray)++
      within (.key "prompt") (collectTextValue .user (first? "prompt" ms)) := by
  simp only [collectSlots,collectMessages,get]
  cases first? "messages" ms <;> rfl

theorem decodedTexts_edited :
    decodedTexts (setAll (edits rules (collectSlots .openAIChat (.obj ms))) (.obj ms)) =
      (reads (.obj ms)).map (Read.final rules) := by
  have hprompt : ∀ (f : Json → Json) (ms' : Members), last? (decodesTo "messages") (modifyFirst "prompt" f ms') =
      last? (decodesTo "messages") ms' := fun f ms' => last?_modifyFirst_of_not (by decide)
  rw [collectSlots_openAIChat,edits_append,setAll_append,edits_within,edits_within,setAll_under_key,setAll_under_key]
  simp only [decodedTexts,reads,hprompt,last?_modifyFirst]
  cases htaken : taken "messages" (decodesTo "messages") ms with
  | none => rfl
  | some t =>
    rcases t with ⟨b,v⟩
    cases b with
    | false => exact messagesTexts_eq
    | true =>
      rw [first?_of_taken htaken]
      exact messagesTexts_edited

end

def HasSlot (slots : List Slot) (role : Role) (text : String) : Prop :=
  text = "" ∨ ∃ sl ∈ slots, sl.role = role ∧ sl.text = text

section
variable {role : Role} {text : String} {slots slots' : List Slot} {rd : Read}

lemma HasSlot.mono (h : HasSlot slots role text) (hsub : slots ⊆ slots') : HasSlot slots' role text :=
  h.imp_right fun ⟨sl,hsl,hfie⟩ => ⟨sl,hsub hsl,hfie⟩

lemma HasSlot.within (step : Step) (h : HasSlot slots role text) :
    HasSlot (ContentGuard.within step slots) role text := by
  rcases h with htext | ⟨sl,hsl,hfie⟩
  · exact .inl htext
  · exact .inr ⟨_,mem_map_of_mem hsl,hfie⟩

lemma HasSlot.element {collect : Json → List Slot} (hv : v ∈ vs) (h : HasSlot (collect v) role text) :
    HasSlot ((forEach (.arr vs)).flatMap fun p => ContentGuard.within p.1 (collect p.2)) role text := by
  obtain ⟨step,hstep⟩ := mem_forEach hv
  refine (h.within step).mono fun sl hsl => ?_
  exact mem_flatMap.mpr ⟨(step,v),hstep,hsl⟩

lemma hasSlot_addText : HasSlot (addText role text) role text := by
  by_cases htext : text = ""
  · exact .inl htext
  · exact .inr ⟨⟨[],role,text⟩,by simp [addText,htext],rfl,rfl⟩

lemma hasSlot_partReads (h : rd ∈ partReads seen part) (hvis : rd.visited = some role) :
    seen = some role ∧ HasSlot (collectPart false role part) role rd.text := by
  cases part with
  | obj ms =>
    simp only [partReads] at h
    split at h
    · cases htaken : taken "text" (· = "text") ms with
      | none => simp [htaken] at h
      | some t =>
        rcases t with ⟨b,v⟩
        simp only [htaken,Option.elim_some,mem_map] at h
        obtain ⟨text,htext,rfl⟩ := h
        cases v with
        | str s =>
          obtain rfl : text = s := by simpa [asText] using htext
          cases b with
          | false => simp at hvis
          | true =>
            refine ⟨by simpa using hvis,HasSlot.mono ?_ (subset_append_left _ _)⟩
            simp only [collectText,get,first?_of_taken htaken]
            exact hasSlot_addText.within _
        | null | bool b | num n | arr vs | obj ms' => simp [asText] at htext
    · simp at h
  | null | bool b | num n | str s | arr vs => simp [partReads] at h

lemma hasSlot_contentReads (h : rd ∈ contentReads seen content) (hvis : rd.visited = some role) :
    seen = some role ∧ HasSlot (collectContent false role (some content)) role rd.text := by
  cases content with
  | str s =>
    obtain rfl : rd = ⟨s,seen⟩ := by simpa [contentReads] using h
    exact ⟨hvis,hasSlot_addText⟩
  | arr parts =>
    obtain ⟨part,hpart,hrd⟩ := mem_flatMap.mp h
    have hslot := hasSlot_partReads hrd hvis
    exact ⟨hslot.1,hslot.2.element hpart⟩
  | null | bool b | num n | obj ms => simp [contentReads] at h

lemma hasSlot_messageReads (h : rd ∈ messageReads seen message)
    (hvis : rd.visited = some role) : seen ∧ HasSlot (collectMessage false message) role rd.text := by
  cases message with
  | obj ms =>
    cases htaken : taken "content" (decodesTo "content") ms with
    | none => simp [messageReads,htaken] at h
    | some t =>
      simp only [messageReads,htaken] at h
      obtain ⟨hseen,hslot⟩ := hasSlot_contentReads h hvis
      rcases t with ⟨b,v⟩
      cases b with
      | false => simp at hseen
      | true =>
        obtain ⟨hs,rfl⟩ : seen ∧ roleOf (first? "role" ms) = role := by simpa using hseen
        refine ⟨hs,?_⟩
        simp only [collectMessage,get,first?_of_taken htaken]
        exact hslot.within _
  | null | bool b | num n | str s | arr vs => simp [messageReads] at h

lemma hasSlot_reads (h : rd ∈ reads (.obj ms)) (hvis : rd.visited = some role) :
    HasSlot (collectSlots .openAIChat (.obj ms)) role rd.text := by
  cases htaken : taken "messages" (decodesTo "messages") ms with
  | none => simp [reads,htaken] at h
  | some t =>
    rcases t with ⟨b,v⟩
    simp only [reads,htaken,Option.elim_some] at h
    cases v with
    | arr messages =>
      obtain ⟨message,hmes,hrd⟩ := mem_flatMap.mp h
      obtain ⟨hb,hslot⟩ := hasSlot_messageReads hrd hvis
      rw [hb] at htaken
      rw [collectSlots_openAIChat,first?_of_taken htaken]
      exact ((hslot.element hmes).within _).mono (subset_append_left _ _)
    | null | bool b | num n | str s | obj ms' => simp [messagesReads] at h

end

section
variable {before after : List CompiledRule} {rule : CompiledRule} {ms : Members}

lemma apply_accepted (h : (apply (before++rule::after) .openAIChat (.obj ms)).rejected = none) :
    decodedTexts (apply (before++rule::after) .openAIChat (.obj ms)).body =
        (reads (.obj ms)).map (Read.final (before++rule::after)) ∧
      ∀ sl ∈ collectSlots .openAIChat (.obj ms),
        ∃ hits st, applyRules (before++rule::after) sl.role ⟨sl.text,false,hits⟩ = .ok st := by
  have hne : before++rule::after ≠ [] := by simp
  simp only [apply,hne,if_false] at h ⊢
  have hspec := applySlots_accepted h
  rw [hspec.1,decodedTexts_edited]
  exact ⟨rfl,hspec.2⟩

lemma passed_of_visited (hsco : rule.roleScope = .any) (hkind : rule.kind = .reject) (hmode : rule.mode = .enforce)
    (h : (apply (before++rule::after) .openAIChat (.obj ms)).rejected = none)
    (hrd : rd ∈ reads (.obj ms)) (hvis : rd.visited = some role) :
    rule.find (masked before role rd.text) = [] := by
  rcases hasSlot_reads hrd hvis with htext | ⟨sl,hsl,hrole,htext⟩
  · rw [htext,masked_empty,rule.find_empty]
  · obtain ⟨hits,st,hok⟩ := (apply_accepted h).2 sl hsl
    rw [← hrole,← htext]
    exact applyRules_passed hok (by simp [roleMatches,hsco]) hkind hmode

/-- What the guard does not visit, or a mask rewrote, is all that can slip through. -/
theorem accepted_texts_clean_iff (before after : List CompiledRule) (hscope : rule.roleScope = .any)
    (hkind : rule.kind = .reject) (hmode : rule.mode = .enforce)
    (h : (apply (before++rule::after) .openAIChat (.obj ms)).rejected = none) :
    (∀ text ∈ decodedTexts (apply (before++rule::after) .openAIChat (.obj ms)).body, rule.find text = []) ↔
      (∀ rd ∈ reads (.obj ms), rd.visited = none → rule.find rd.text = []) ∧
      ∀ rd ∈ reads (.obj ms), ∀ role ∈ rd.visited, masked after role (masked before role rd.text) ≠
        masked before role rd.text → rule.find (masked after role (masked before role rd.text)) = [] := by
  have hfinal : ∀ role text, masked (before++rule::after) role text = masked after role (masked before role text) := by
    intro role text
    rw [masked_append,masked_cons_reject hkind]
  rw [(apply_accepted h).1,forall_mem_map]
  constructor
  · intro hcle
    refine ⟨fun rd hrd hnone => ?_,fun rd hrd role hrole _ => ?_⟩
    · simpa [Read.final,hnone] using hcle rd hrd
    · have hsome : rd.visited = some role := hrole
      simpa [Read.final,hsome,hfinal] using hcle rd hrd
  · rintro ⟨hunseen,hrew⟩ rd hrd
    cases hvis : rd.visited with
    | none => simpa [Read.final,hvis] using hunseen rd hrd hvis
    | some role =>
      simp only [Read.final,hvis,Option.elim_some,hfinal]
      by_cases hsame : masked after role (masked before role rd.text) = masked before role rd.text
      · rw [hsame]
        exact passed_of_visited hscope hkind hmode h hrd hvis
      · exact hrew rd hrd role hvis hsame

def bombRule : CompiledRule where
  id := 7
  roleScope := .any
  kind := .reject
  mode := .enforce
  find := fun text => if text = "bomb" then [(0,4)] else []
  find_empty := rfl

def repeatedContent (first last : String) : Members :=
  [("model",.str "gpt-4"),("messages",.arr [.obj [("role",.str "user"),("content",.str first),("content",.str last)]])]

theorem accepted_texts_clean_iff_repeated :
    (apply [bombRule] .openAIChat (.obj (repeatedContent "hello" "world"))).rejected = none ∧
      ∀ text ∈ decodedTexts (apply [bombRule] .openAIChat (.obj (repeatedContent "hello" "world"))).body,
        bombRule.find text = [] :=
  have haccepted : (apply [bombRule] .openAIChat (.obj (repeatedContent "hello" "world"))).rejected = none := by
    decide +kernel
  ⟨haccepted,(accepted_texts_clean_iff [] [] rfl rfl rfl haccepted).mpr (by decide +kernel)⟩

theorem repeated_content_unseen : (apply [bombRule] .openAIChat (.obj (repeatedContent "hello" "bomb"))).rejected = none ∧
    ¬∀ text ∈ decodedTexts (apply [bombRule] .openAIChat (.obj (repeatedContent "hello" "bomb"))).body,
      bombRule.find text = [] := by
  decide +kernel

end

end LurusHub.ContentGuard
