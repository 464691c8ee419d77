import LurusHub.TextCut

/-! Markdown data images of a text part in `CovertOpenAI2Gemini`. The scanner joins the first `![`
with the first `](data:` after it; a data image has no bracket between the two. Texts are lists of
characters. -/
namespace LurusHub.MarkdownImages

open TextCut List

structure Env where
  geminiVisionMaxImageNum : ℤ
  /-- `base64.StdEncoding.DecodeString` and the image libraries behind `getImageConfig`. -/
  imageFormat : List Char → Except String (List Char)

inductive GeminiPart
  | text (text : List Char)
  | inlineData (mimeType data : List Char)
  deriving DecidableEq

def decodeBase64ImageData (env : Env) (base64String : List Char) : Except String (List Char × List Char) :=
  let base64String := match cut [','] base64String with
    | some (_,data) => data
    | none => base64String
  if base64String = [] then .error "base64 string is empty"
  else (env.imageFormat base64String).map fun format => ("image/".toList++format,base64String)

/-- What stands before the comma names the type; only without a type is the data looked at. -/
def decodeBase64FileData (env : Env) (base64String : List Char) : Except String (List Char × List Char) :=
  match cut [','] base64String with
  | none => decodeBase64ImageData env base64String
  | some (mimeType,base64String) =>
    match cut [';'] mimeType with
    | none => decodeBase64ImageData env base64String
    | some (mimeType,_) =>
      match cut [':'] mimeType with
      | none => decodeBase64ImageData env base64String
      | some (_,mimeType) => .ok (mimeType,base64String)

def opening : List Char := ['!','[']
def bracket : List Char := [']','(','d','a','t','a',':']
def dataScheme : List Char := ['d','a','t','a',':']

/-- From an opening: the text up to the bracket, the data URL, and what follows the image. -/
def pair (text : List Char) : Option (List Char × List Char × List Char) := do
  let (label,afterBracket) ← cut bracket text
  let (dataUrl,rest) ← cut [')'] (dataScheme++afterBracket)
  return (label,dataUrl,rest)

/-- One round of the loop: the text before the image, its data URL, and the remaining text. -/
def nextImage (text : List Char) : Option (List Char × List Char × List Char) := do
  let (textBefore,afterStart) ← cut opening text
  let (_,dataUrl,rest) ← pair (opening++afterStart)
  return (textBefore,dataUrl,rest)

def textPart (text : List Char) : List GeminiPart := if text = [] then [] else [.text text]

/-- Every round shortens the text; the remaining text, all of it if there was no image, is kept. -/
def markdownLoop (env : Env) : ℕ → ℤ → List Char → Except String (List GeminiPart × ℤ)
  | 0,imageNum,text => .ok (textPart text,imageNum)
  | fuel+1,imageNum,text =>
    match nextImage text with
    | none => .ok (textPart text,imageNum)
    | some (textBefore,dataUrl,rest) =>
      if env.geminiVisionMaxImageNum ≠ -1 ∧ imageNum+1 > env.geminiVisionMaxImageNum then
        .error ("too many images in the message, max allowed is "++toString env.geminiVisionMaxImageNum)
      else match decodeBase64FileData env dataUrl with
        | .error err => .error ("decode markdown base64 image data failed: "++err)
        | .ok (format,base64String) =>
          (markdownLoop env fuel (imageNum+1) rest).map fun p =>
            (textPart textBefore++.inlineData format base64String::p.1,p.2)

def textParts (env : Env) (imageNum : ℤ) (text : List Char) : Except String (List GeminiPart × ℤ) :=
  markdownLoop env text.length imageNum text

def texts (parts : List GeminiPart) : List Char := parts.flatMap fun | .text text => text | .inlineData _ _ => []

def inlineImages (parts : List GeminiPart) : List (List Char × List Char) :=
  parts.filterMap fun | .text _ => none | .inlineData mimeType data => some (mimeType,data)

def Plain (alt : List Char) : Prop := '[' ∉ alt ∧ ']' ∉ alt
  deriving Decidable

def image? (text : List Char) : Option (List Char × List Char) :=
  (pair text).bind fun p => if opening <+: text ∧ Plain (p.1.drop 2) then some p.2 else none

/-- The text without its data images, and their URLs, from the left; `skip` characters belong to the last image. -/
def strip : ℕ → List Char → List Char × List (List Char)
  | _,[] => ([],[])
  | skip+1,_::s => strip skip s
  | 0,c::s =>
    match image? (c::s) with
    | some (dataUrl,rest) => let p := strip (s.length-rest.length) s; (p.1,dataUrl::p.2)
    | none => let p := strip 0 s; (c::p.1,p.2)

def withoutImages (text : List Char) : List Char := (strip 0 text).1
def images (text : List Char) : List (List Char) := (strip 0 text).2

def Closes (text : List Char) : Prop := ∃ x y z, text = x++bracket++(y++ ')'::z)

inductive OpensImages : List Char → Prop
  | rest {text : List Char} (h : ∀ t, t <:+ text → opening <+: t → ¬Closes t) : OpensImages text
  | image (txt alt body : List Char) {rest : List Char} (htxt : ¬opening <:+: txt)
    (halt : Plain alt) (hbody : ')' ∉ body)
      (hrest : OpensImages rest) : OpensImages (txt++(opening++alt++bracket++(body++ ')'::rest)))

lemma pair_eq : pair text = (cut bracket text).bind fun p =>
    (cut [')'] p.2).map fun q => (p.1,dataScheme++q.1,q.2) := by
  have hscheme : ')' ∉ dataScheme := by decide
  simp only [pair,cut_append_left hscheme]
  cases cut bracket text with
  | none => rfl
  | some p => cases hc : cut [')'] p.2 <;> simp [hc]

lemma pair_eq_some (h : pair text = some (label,url,rest)) :
    ∃ body, text = label++bracket++(body++ ')'::rest) ∧ ')' ∉ body ∧ url = dataScheme++body := by
  rw [pair_eq] at h
  obtain ⟨⟨l,after⟩,hbra,h⟩ := Option.bind_eq_some_iff.mp h
  obtain ⟨⟨body,r⟩,hclo,h⟩ := Option.map_eq_some_iff.mp h
  cases h
  refine ⟨body,?_,not_mem_of_cut hclo,rfl⟩
  have hafter : after = body++[')']++r := cut_eq_some hclo
  rw [cut_eq_some hbra,hafter]
  simp

lemma image?_eq_some_iff : image? text = some (dataUrl,rest) ↔
    ∃ alt body, text = opening++alt++bracket++(body++ ')'::rest) ∧ Plain alt ∧ ')' ∉ body ∧
    dataUrl = dataScheme++body := by
  constructor
  · intro h
    obtain ⟨⟨label,url,r⟩,hpair,h⟩ := Option.bind_eq_some_iff.mp h
    split_ifs at h with hboth
    cases h
    obtain ⟨⟨after,hopening⟩,hplain⟩ := hboth
    obtain ⟨body,htext,hbody,hurl⟩ := pair_eq_some hpair
    -- The label holds the opening: the bracket starts with another character.
    match label with
    | [] | [a] => simp [← hopening,opening,bracket] at htext
    | a::b::alt =>
      have hlab : a = '!' ∧ b = '[' := by
        simp only [← hopening,opening,List.cons_append,List.cons.injEq] at htext
        exact ⟨htext.1.symm,htext.2.1.symm⟩
      exact ⟨alt,body,by rw [htext,hlab.1,hlab.2]; rfl,hplain,hbody,hurl⟩
  · rintro ⟨alt,body,rfl,hplain,hbody,rfl⟩
    have hlab : ']' ∉ opening++alt := by simp [opening,hplain.2]
    have hpair : pair (opening++alt++bracket++(body++ ')'::rest)) = some (opening++alt,dataScheme++body,rest) := by
      rw [pair_eq,List.append_assoc,bracket,cut_of_not_mem hlab,Option.bind_some]
      rw [show body++ ')'::rest = body++([')']++rest) from rfl,cut_of_not_mem hbody]
      rfl
    rw [image?,hpair]
    exact if_pos ⟨by simp [List.append_assoc],hplain⟩

lemma image?_eq_none {text : List Char} (h : opening <+: text → ¬Closes text) : image? text = none := by
  cases hima : image? text with
  | none => rfl
  | some p =>
    obtain ⟨alt,body,rfl,_⟩ := image?_eq_some_iff.mp hima
    exact absurd ⟨opening++alt,body,p.2,rfl⟩ (h (by simp [append_assoc]))

lemma strip_skip (s : List Char) (skip : ℕ) : strip skip s = strip 0 (s.drop skip) := by
  induction s generalizing skip with
  | nil => simp [strip]
  | cons c s ih =>
    cases skip with
    | zero => rfl
    | succ skip => exact ih skip

lemma strip_image (h : image? text = some (url,rest)) :
    strip 0 text = (withoutImages rest,url::images rest) := by
  obtain ⟨alt,body,htext,_⟩ := image?_eq_some_iff.mp h
  cases text with
  | nil => simp [bracket] at htext
  | cons c s =>
    have hsuf : rest <:+ s := by
      have hall : rest <:+ c::s := ⟨opening++alt++bracket++(body++[')']),by rw [htext]; simp⟩
      rcases suffix_cons_iff.mp hall with rfl | hs
      · have hleng := congrArg length htext
        simp [bracket] at hleng
        omega
      · exact hs
    have hstr := strip_skip s (s.length-rest.length)
    rw [← suffix_iff_eq_drop.mp hsuf] at hstr
    simp only [strip,h,hstr,withoutImages,images]

lemma strip_cons (h : image? (c::s) = none) : strip 0 (c::s) = (c::withoutImages s,images s) := by
  rw [strip,h]
  rfl

lemma nextImage_cons : nextImage (c::s) =
    if opening <+: c::s then (pair (c::s)).map fun p => ([],p.2) else (nextImage s).map fun p => (c::p.1,p.2) := by
  by_cases hopening : opening <+: c::s
  · rw [nextImage,cut,if_pos hopening,if_pos hopening]
    simp only [Option.bind_eq_bind,Option.bind_some,prefix_iff_eq_append.mp hopening]
    cases pair (c::s) <;> rfl
  · rw [nextImage,cut,if_neg hopening,if_neg hopening,nextImage]
    cases cut opening s with
    | none => rfl
    | some p => cases hp : pair (opening++p.2) <;> simp [hp]

lemma strip_of_not_closes {text : List Char} (h : ∀ t, t <:+ text → opening <+: t → ¬Closes t) :
    strip 0 text = (text,[]) := by
  induction text with
  | nil => rfl
  | cons c s ih =>
    have hs := ih fun t ht => h t (ht.trans (suffix_cons c s))
    rw [strip_cons (image?_eq_none (h _ suffix_rfl)),withoutImages,images,hs]

lemma nextImage_of_not_closes {text : List Char} (h : ∀ t, t <:+ text → opening <+: t → ¬Closes t) :
    nextImage text = none := by
  induction text with
  | nil => rfl
  | cons c s ih =>
    rw [nextImage_cons,ih fun t ht => h t (ht.trans (suffix_cons c s))]
    split_ifs with hopening
    · cases hpair : pair (c::s) with
      | none => rfl
      | some p =>
        obtain ⟨body,htext,_⟩ := pair_eq_some hpair
        exact absurd ⟨p.1,body,p.2.2,htext⟩ (h _ suffix_rfl hopening)
    · rfl

lemma image_behind {txt t dataUrl rest : List Char} (htxt : ¬opening <:+: txt) (h : image? t = some (dataUrl,rest)) :
    nextImage (txt++t) = some (txt,dataUrl,rest) ∧
    strip 0 (txt++t) = (txt++withoutImages rest,dataUrl::images rest) := by
  obtain ⟨⟨label,url,r⟩,hpair,hif⟩ := Option.bind_eq_some_iff.mp h
  split_ifs at hif with hboth
  cases hif
  obtain ⟨⟨s,rfl⟩,_⟩ := hboth
  induction txt with
  | nil =>
    have hcut : cut opening (opening++s) = some ([],s) := cut_self_append '!' ['['] s
    exact ⟨by simp [nextImage,hcut,hpair],strip_image h⟩
  | cons c txt ih =>
    obtain ⟨hnext,hstr⟩ := ih fun hin => htxt (hin.trans (suffix_cons c txt).isInfix)
    -- The two characters of an occurrence here would both lie in the text before the image.
    have hopening : ¬opening <+: c::(txt++(opening++s)) := fun hpre => by
      cases txt with
      | nil => simp [opening] at hpre
      | cons d txt =>
        obtain ⟨rfl,rfl,_⟩ : '!' = c ∧ '[' = d ∧ True := by simpa [opening] using hpre
        exact htxt (prefix_append opening txt).isInfix
    have hima : image? (c::(txt++(opening++s))) = none := image?_eq_none fun hpre => absurd hpre hopening
    rw [cons_append,nextImage_cons,if_neg hopening,hnext,strip_cons hima,withoutImages,images,hstr]
    exact ⟨rfl,rfl⟩

lemma texts_textPart : texts (textPart text) = text ∧ inlineImages (textPart text) = [] := by
  by_cases h : text = [] <;> simp [textPart,h,texts,inlineImages]

lemma markdownLoop_keeps {env : Env} {fuel : ℕ} {imageNum imageNum' : ℤ} {text : List Char} {parts : List GeminiPart}
    (hope : OpensImages text) (hfuel : text.length ≤ fuel)
    (h : markdownLoop env fuel imageNum text = .ok (parts,imageNum')) :
    texts parts = withoutImages text ∧ (images text).mapM (decodeBase64FileData env) = .ok (inlineImages parts) := by
  induction hope generalizing fuel imageNum parts with
  | @rest text hnot =>
    have hloop : markdownLoop env fuel imageNum text = .ok (textPart text,imageNum) := by
      cases fuel with
      | zero => rfl
      | succ fuel => rw [markdownLoop,nextImage_of_not_closes hnot]
    cases hloop.symm.trans h
    rw [withoutImages,images,strip_of_not_closes hnot,(texts_textPart).1,(texts_textPart).2]
    exact ⟨rfl,rfl⟩
  | @image txt alt body rest htxt halt hbody _ ih =>
    have hima : image? (opening++alt++bracket++(body++ ')'::rest)) = some (dataScheme++body,rest) :=
      image?_eq_some_iff.mpr ⟨alt,body,rfl,halt,hbody,rfl⟩
    obtain ⟨hnext,hstr⟩ := image_behind htxt hima
    simp only [length_append,length_cons,bracket,length_nil] at hfuel
    obtain ⟨fuel,rfl⟩ := Nat.exists_eq_succ_of_ne_zero (show fuel ≠ 0 by omega)
    rw [markdownLoop,hnext] at h
    dsimp only at h
    split_ifs at h
    split at h
    next => cases h
    next format base64String hdec =>
      cases hloop : markdownLoop env fuel (imageNum+1) rest with
      | error err => rw [hloop] at h; cases h
      | ok p =>
      rw [hloop] at h
      cases h
      obtain ⟨htex,himas⟩ := ih (by omega) hloop
      rw [withoutImages,images,hstr]
      constructor
      · rw [texts,flatMap_append,← texts,(texts_textPart).1,← htex]
        rfl
      · have hparts : inlineImages (textPart txt++.inlineData format base64String::p.1) =
          (format,base64String)::inlineImages p.1 := by
          rw [inlineImages,filterMap_append,← inlineImages,(texts_textPart).2]
          rfl
        rw [mapM_cons,hdec,himas,hparts]
        rfl

theorem textParts_keeps (env : Env) (imageNum imageNum' : ℤ) (text : List Char) (parts : List GeminiPart)
    (hopens : OpensImages text) (h : textParts env imageNum text = .ok (parts,imageNum')) :
    texts parts = withoutImages text ∧ (images text).mapM (decodeBase64FileData env) = .ok (inlineImages parts) :=
  markdownLoop_keeps hopens le_rfl h

def unlimited : Env := ⟨-1,fun _ => .error "image: unknown format"⟩

/-- The data of the first image holds a `![` that opens nothing. -/
def nested : List Char := "![a](data:image/png;base64,x![y]z) ![b](data:image/png;base64,QUJD)".toList

def nestedParts : List GeminiPart :=
  [.inlineData "image/png".toList "x![y]z".toList,.text [' '],.inlineData "image/png".toList "QUJD".toList]

theorem textParts_keeps_nested : textParts unlimited 0 nested = .ok (nestedParts,2) ∧
    texts nestedParts = withoutImages nested := by
  have hparts : textParts unlimited 0 nested = .ok (nestedParts,2) := by decide +kernel
  have hopens : OpensImages nested :=
    .image [] ['a'] "image/png;base64,x![y]z".toList (by decide) (by decide) (by decide)
      (.image [' '] ['b'] "image/png;base64,QUJD".toList (by decide) (by decide) (by decide)
        (.rest fun t ht hpre => by simp_all [opening]))
  exact ⟨hparts,(textParts_keeps unlimited 0 2 _ _ hopens hparts).1⟩

theorem linked_image_lost :
    textParts unlimited 0 "![a](x) ![b](data:image/png;base64,QUJD)".toList =
      .ok ([.inlineData "image/png".toList "QUJD".toList],1) ∧
    withoutImages "![a](x) ![b](data:image/png;base64,QUJD)".toList = "![a](x) ".toList := by
  decide +kernel

end LurusHub.MarkdownImages
