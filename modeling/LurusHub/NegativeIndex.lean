import LurusHub.JsonTree
import LurusHub.TextCut
import Mathlib.Data.List.TakeWhile

/-! Negative indices in the paths of parameter overrides. `processNegativeIndex` edits the text of the path; the array of an
index is the one before the first occurrence of the index in the path as it was given. -/
namespace LurusHub.NegativeIndex

open TextCut JsonTree List Option

def negative? : List Char → Option ℕ
  | '-'::s => ofDecimal? s
  | _ => none

/-- What `gjson` finds below a value for one part of a path. -/
def child (part : List Char) : Json → Option Json
  | .obj members => first? (String.ofList part) members
  | .arr elements => (ofDecimal? part).bind (elements[·]?)
  | _ => none

/-- The same, counting `-k` from the end of an array. -/
def childFromEnd (part : List Char) : Json → Option Json
  | .arr elements =>
    match negative? part with
    | some k => if k ≤ elements.length then elements[elements.length-k]? else none
    | none => child part (.arr elements)
  | v => child part v

def walk (child : List Char → Json → Option Json) : List (List Char) → Json → Option Json
  | [],v => some v
  | part::parts,v => (child part v).bind (walk child parts)

/-- Parts are separated by dots; no part has a character with another meaning. -/
def gjsonGet (doc : Json) (path : List Char) : Option Json := walk child (path.splitOn '.') doc

/-- The match of `-\d+` at the start of a text. -/
def matchNegative : List Char → Option (List Char)
  | '-'::s => if s.takeWhile Char.isDigit = [] then none else some ('-'::s.takeWhile Char.isDigit)
  | _ => none

/-- The submatches of `\.(-\d+)`; a match has no second dot, so none overlap. -/
def findAllNegative : List Char → List (List Char)
  | [] => []
  | c::s => (if c = '.' then (matchNegative s).toList else [])++findAllNegative s

def replaceOnce (s old new : List Char) : List Char :=
  match cut old s with
  | some (before,after) => before++new++after
  | none => s

def trimDot (s : List Char) : List Char := if s.getLast? = some '.' then s.dropLast else s

def arrayPath (path negIndex : List Char) : List Char := trimDot (((cut negIndex path).map (·.1)).getD path)

def replaceNegative (doc : Json) (path result negIndex : List Char) : List Char :=
  match gjsonGet doc (arrayPath path negIndex),negative? negIndex with
  | some (.arr elements),some k =>
    if 0 < k ∧ k ≤ elements.length
      then replaceOnce result ('.'::negIndex) ('.'::decimal (elements.length-k)) else result
  | _,_ => result

def processNegativeIndex (doc : Json) (path : List Char) : List Char :=
  (findAllNegative path).foldl (replaceNegative doc path) path

def joined (parts : List (List Char)) : List Char := ['.'].intercalate parts

/-- There is an array with that many elements at the path before the first occurrence of the index. -/
def Counts (doc : Json) (path negIndex : List Char) : Prop :=
  ∃ elements k, gjsonGet doc (arrayPath path negIndex) = some (.arr elements) ∧ negative? negIndex = some k ∧
    0 < k ∧ k ≤ elements.length

/-- A part that starts like a negative index is below an array that is reached without another one, and its text does not
occur before it; or it is below an object, and no array is found to count it in. -/
def Resolvable (doc : Json) (parts : List (List Char)) : Prop :=
  ∀ front part rest m, parts = front++part::rest → matchNegative part = some m →
    (∀ elements, walk childFromEnd front doc = some (.arr elements) →
      front ≠ [] ∧ ¬part <:+: joined front ∧ walk child front doc = some (.arr elements)) ∧
    ∀ members, walk childFromEnd front doc = some (.obj members) → front = [] ∨ ¬Counts doc (joined parts) m

lemma walk_append (v : Json) : walk f (parts++parts') v = (walk f parts v).bind (walk f parts') := by
  induction parts generalizing v with
  | nil => rfl
  | cons part parts ih =>
    rw [cons_append,walk,walk,bind_assoc]
    exact congrArg _ (funext ih)

lemma walk_split (h : walk f (front++part::rest) doc = some v) :
    ∃ w x, walk f front doc = some w ∧ f part w = some x ∧ walk f rest x = some v := by
  rw [walk_append] at h
  obtain ⟨w,hw,h⟩ := bind_eq_some_iff.mp h
  obtain ⟨x,hx,h⟩ := bind_eq_some_iff.mp h
  exact ⟨w,x,hw,hx,h⟩

lemma container_of_child (h : childFromEnd part w = some x) :
    (∃ elements, w = .arr elements) ∨ ∃ members, w = .obj members := by
  cases w with
  | arr elements => exact .inl ⟨elements,rfl⟩
  | obj members => exact .inr ⟨members,rfl⟩
  | null | bool b | num l | str s => simp [childFromEnd,child] at h

lemma child_arr_of_match (h : matchNegative part = some m) (elements : List Json) :
    child part (.arr elements) = none := by
  unfold matchNegative at h
  split at h
  · simp [child,ofDecimal?]
  · cases h

lemma matchNegative_of_negative (h : negative? part ≠ none) : matchNegative part = some part := by
  unfold negative? at h
  split at h
  next s =>
    rw [ofDecimal?] at h
    split_ifs at h with hs
    · have hall : s.takeWhile Char.isDigit = s := takeWhile_eq_self_iff.mpr (all_eq_true.mp hs.2)
      rw [matchNegative,hall,if_neg hs.1]
    · exact absurd rfl h
  next => exact absurd rfl h

lemma walk_childFromEnd (h : ∀ front part rest, parts = front++part::rest → ∀ elements,
    walk childFromEnd front v = some (.arr elements) → matchNegative part = none) :
    walk childFromEnd parts v = walk child parts v := by
  induction parts generalizing v with
  | nil => rfl
  | cons part parts ih =>
    have hchild : childFromEnd part v = child part v := by
      cases v with
      | arr elements =>
        have hpart := h [] part parts rfl elements rfl
        have hnone : negative? part = none := by
          by_contra hsome
          rw [matchNegative_of_negative hsome] at hpart
          cases hpart
        rw [childFromEnd,hnone]
      | null | bool b | num l | str s | obj ms => rfl
    rw [walk,walk,← hchild]
    cases hx : childFromEnd part v with
    | none => rfl
    | some x =>
      refine ih fun front p rest heq elements hw => h (part::front) p rest (by rw [heq]; rfl) elements ?_
      rw [walk,hx]
      exact hw

lemma joined_cons (rest : List (List Char)) :
    ∃ tail, (tail = [] ∨ ∃ s, tail = '.'::s) ∧ ∀ part, joined (part::rest) = part++tail := by
  cases rest with
  | nil => exact ⟨[],Or.inl rfl,fun part => by simp [joined]⟩
  | cons part' rest =>
    exact ⟨'.'::joined (part'::rest),Or.inr ⟨_,rfl⟩,fun part => by simp [joined]⟩

lemma joined_append (h : front ≠ []) :
    joined (front++part::rest) = joined front++ '.'::joined (part::rest) := by
  induction front with
  | nil => exact absurd rfl h
  | cons p front ih =>
    cases front with
    | nil => simp [joined]
    | cons p' front =>
      have hrest := ih (by simp)
      simp only [joined,cons_append,intercalate_cons_cons] at hrest ⊢
      rw [hrest]
      simp

lemma matchNegative_joined : matchNegative (joined (part::rest)) = matchNegative part := by
  obtain ⟨tail,htail,hjoined⟩ := joined_cons rest
  have hdigits : tail.takeWhile Char.isDigit = [] := by
    rcases htail with rfl | ⟨s,rfl⟩
    · rfl
    · exact takeWhile_cons_of_neg (by decide)
  rw [hjoined]
  cases part with
  | nil => rcases htail with rfl | ⟨s,rfl⟩ <;> rfl
  | cons c t =>
    have htake : (t++tail).takeWhile Char.isDigit = t.takeWhile Char.isDigit := by
      rw [takeWhile_append,hdigits,append_nil]
      split_ifs with hleng
      · exact (List.IsPrefix.eq_of_length ( takeWhile_prefix _) hleng).symm
      · rfl
    by_cases hc : c = '-'
    · subst hc
      simp [matchNegative,htake]
    · simp [matchNegative,hc]

lemma findAllNegative_append (h : '.' ∉ part) (s : List Char) : findAllNegative (part++s) = findAllNegative s := by
  induction part with
  | nil => rfl
  | cons c part ih =>
    obtain ⟨hc,hpart⟩ := not_or.mp (mem_cons.not.mp h)
    rw [cons_append,findAllNegative,if_neg (Ne.symm hc),ih hpart]
    rfl

lemma findAllNegative_joined (h : ∀ part ∈ parts, '.' ∉ part) :
    findAllNegative (joined parts) = parts.tail.filterMap matchNegative := by
  induction parts with
  | nil => rfl
  | cons part parts ih =>
    obtain ⟨hpart,hparts⟩ := forall_mem_cons.mp h
    cases parts with
    | nil =>
      have hone := findAllNegative_append hpart []
      simpa [joined,findAllNegative] using hone
    | cons part' parts =>
      have hcons : joined (part::part'::parts) = part++ '.'::joined (part'::parts) := by simp [joined]
      rw [hcons,findAllNegative_append hpart,findAllNegative,ih hparts,matchNegative_joined,tail_cons,tail_cons,
        filterMap_cons]
      cases matchNegative part' <;> rfl

lemma gjsonGet_joined (hne : parts ≠ []) (h : ∀ part ∈ parts, '.' ∉ part) :
    gjsonGet doc (joined parts) = walk child parts doc := by
  rw [gjsonGet,joined,splitOn_intercalate '.' h hne]

section Single
variable {part tail : List Char} (hpart : negative? part ≠ none) (hdot : '.' ∉ part) (hfirst : ¬part <:+: joined front)
include hpart hdot hfirst

lemma arrayPath_eq : arrayPath (joined front++ '.'::(part++tail)) part = joined front := by
  have hself : cut part (part++tail) = some ([],tail) := by
    cases part with
    | nil => exact absurd rfl hpart
    | cons c s => exact cut_self_append c s tail
  rw [arrayPath,cut_separated hdot hfirst,hself]
  simp [trimDot]

omit hpart in
lemma replaceOnce_eq (new : List Char) :
    replaceOnce (joined front++ '.'::(part++tail)) ('.'::part) ('.'::new) = joined front++ '.'::(new++tail) := by
  have hcut := cut_cons_separated hdot hfirst tail
  rw [cons_append] at hcut
  rw [replaceOnce,hcut]
  simp

theorem replaceNegative_eq (doc : Json) (hfro : front ≠ []) (hdots : ∀ p ∈ front, '.' ∉ p) :
    replaceNegative doc (joined (front++part::rest)) (joined (front++part::rest)) part =
      match walk child front doc,negative? part with
      | some (.arr elements),some k =>
        if 0 < k ∧ k ≤ elements.length then joined (front++decimal (elements.length-k)::rest)
        else joined (front++part::rest)
      | _,_ => joined (front++part::rest) := by
  obtain ⟨tail,_,hjoined⟩ := joined_cons rest
  simp only [joined_append hfro,hjoined]
  rw [replaceNegative,arrayPath_eq hpart hdot hfirst,gjsonGet_joined hfro hdots]
  simp only [replaceOnce_eq hdot hfirst]

end Single

lemma foldl_replaceNegative {ms : List (List Char)} (h : ∀ m ∈ ms, ¬Counts doc path m) (result : List Char) :
    ms.foldl (replaceNegative doc path) result = result := by
  induction ms with
  | nil => rfl
  | cons m ms ih =>
    rw [forall_mem_cons] at h
    have hsame : replaceNegative doc path result m = result := by
      unfold replaceNegative
      split
      · next elements k harr hneg => exact if_neg fun hk => h.1 ⟨elements,k,harr,hneg,hk⟩
      · rfl
    rw [foldl_cons,hsame,ih h.2]

section
variable {doc v : Json} {parts : List (List Char)} (hres : Resolvable doc parts)
include hres

lemma Resolvable.not_both (hparts : parts = front++part::(mid++part'::rest)) (hmat : matchNegative part = some m)
    (hmat' : matchNegative part' = some m') (harr : walk childFromEnd front doc = some (.arr elements)) :
    walk childFromEnd (front++part::mid) doc ≠ some (.arr elements') := by
  intro harr'
  have hfirst := ((hres _ _ _ _ hparts hmat).1 _ harr).2.2
  have hsecond := ((hres (front++part::mid) part' rest m' (by simp [hparts]) hmat').1 _ harr').2.2
  rw [walk_append,hfirst,bind_some,walk,child_arr_of_match hmat] at hsecond
  cases hsecond

lemma Resolvable.not_counts (h : walk childFromEnd parts doc = some v)
    (hparts : parts = front++part::rest) (hne : front ≠ [])
    (hmat : matchNegative part = some m) (hnot : ∀ elements, walk childFromEnd front doc ≠ some (.arr elements)) :
    ¬Counts doc (joined parts) m := by
  obtain ⟨w,x,hw,hx,_⟩ := walk_split (hparts ▸ h)
  rcases container_of_child hx with ⟨elements,rfl⟩ | ⟨members,rfl⟩
  · exact absurd hw (hnot elements)
  · exact ((hres _ _ _ _ hparts hmat).2 members hw).resolve_left hne

end

lemma exists_of_mem_tail (h : m ∈ parts.tail.filterMap matchNegative) :
    ∃ front part rest, parts = front++part::rest ∧ front ≠ [] ∧ matchNegative part = some m := by
  obtain ⟨part,hpart,hmat⟩ := mem_filterMap.mp h
  obtain ⟨a,b,hab⟩ := append_of_mem hpart
  cases parts with
  | nil => cases hpart
  | cons p parts => exact ⟨p::a,part,b,by rw [tail_cons] at hab; simp [hab],by simp,hmat⟩

/-- Every part that starts like a negative index is taken as it is meant. -/
theorem resolves_negative (doc v : Json) (parts : List (List Char)) (hne : parts ≠ [])
    (hdots : ∀ part ∈ parts, '.' ∉ part)
    (hres : Resolvable doc parts) (h : walk childFromEnd parts doc = some v) :
    gjsonGet doc (processNegativeIndex doc (joined parts)) = some v := by
  rw [processNegativeIndex,findAllNegative_joined hdots]
  by_cases hex : ∃ front part rest m elements, parts = front++part::rest ∧ matchNegative part = some m ∧
      walk childFromEnd front doc = some (.arr elements)
  · obtain ⟨front,part,rest,m,elements,hparts,hmat,harr⟩ := hex
    obtain ⟨hfro,hfirst,hchild⟩ := (hres front part rest m hparts hmat).1 elements harr
    obtain ⟨w,x,hw,hx,hv⟩ := walk_split (hparts ▸ h)
    obtain rfl := some.inj (harr.symm.trans hw)
    obtain ⟨k,hk⟩ : ∃ k, negative? part = some k := by
      rw [← ne_none_iff_exists']
      intro hnone
      rw [childFromEnd,hnone] at hx
      simp [child_arr_of_match hmat] at hx
    have hneg : negative? part ≠ none := by rw [hk]; simp
    obtain rfl := some.inj ((matchNegative_of_negative hneg).symm.trans hmat)
    simp only [childFromEnd,hk] at hx
    split_ifs at hx with hleng
    obtain ⟨hindex,_⟩ := List.getElem?_eq_some_iff.mp hx
    -- the other parts that start like an index are below objects and stay
    have hbefore : ∀ m' ∈ front.tail.filterMap matchNegative, ¬Counts doc (joined parts) m' := by
      intro m' hm'
      obtain ⟨f,p,r,rfl,hf,hp⟩ := exists_of_mem_tail hm'
      have hsplit : parts = f++p::(r++part::rest) := by simp [hparts]
      refine hres.not_counts h hsplit hf hp fun es hes => ?_
      exact hres.not_both hsplit hp hmat hes harr
    have hbehind : ∀ front' p r m', rest = front'++p::r → matchNegative p = some m' → ∀ es,
        walk childFromEnd (front++part::front') doc ≠ some (.arr es) := by
      rintro front' p r m' rfl hp es
      exact hres.not_both hparts hmat hp harr
    have hafter : ∀ m' ∈ rest.filterMap matchNegative, ¬Counts doc (joined parts) m' := by
      intro m' hm'
      obtain ⟨p,hp,hmat'⟩ := mem_filterMap.mp hm'
      obtain ⟨a,b,rfl⟩ := append_of_mem hp
      exact hres.not_counts h (show parts = (front++part::a)++p::b by simp [hparts]) (by simp) hmat'
        (hbehind a p b m' rfl hmat')
    have htail : walk child rest x = some v := by
      rw [← walk_childFromEnd,hv]
      intro a p r heq es hes
      cases hmat' : matchNegative p with
      | none => rfl
      | some m' =>
        refine absurd ?_ (hbehind a p r m' heq hmat' es)
        rw [walk_append,harr,bind_some,walk,childFromEnd,hk]
        simp [hleng,hx,hes]
    have hmatches : parts.tail.filterMap matchNegative =
        front.tail.filterMap matchNegative++part::rest.filterMap matchNegative := by
      rw [hparts,tail_append_of_ne_nil hfro,filterMap_append,filterMap_cons,hmat]
    rw [hparts] at hdots
    obtain ⟨hdotsF,hdotsR⟩ := forall_mem_append.mp hdots
    obtain ⟨hdot,hdotsR⟩ := forall_mem_cons.mp hdotsR
    rw [hmatches,foldl_append,foldl_replaceNegative hbefore,foldl_cons,foldl_replaceNegative hafter,hparts,
      replaceNegative_eq hneg hdot hfirst doc hfro hdotsF,hchild,hk]
    have hnumber : ∀ p ∈ front++decimal (elements.length-k)::rest, '.' ∉ p := by
      refine List.forall_mem_append.mpr ⟨hdotsF,List.forall_mem_cons.mpr ⟨fun hmem => ?_,hdotsR⟩⟩
      have hdig := isDigit_of_mem_decimal hmem
      cases hdig
    simp only [if_pos (show 0 < k ∧ k ≤ elements.length by omega)]
    rw [gjsonGet_joined (by simp) hnumber,walk_append,hchild,bind_some,walk,child,ofDecimal?_decimal,bind_some,hx]
    exact htail
  · have hplain : ∀ front part rest, parts = front++part::rest → ∀ elements,
        walk childFromEnd front doc = some (.arr elements) → matchNegative part = none := by
      intro front part rest hparts elements harr
      cases hmat : matchNegative part with
      | none => rfl
      | some m => exact absurd ⟨front,part,rest,m,elements,hparts,hmat,harr⟩ hex
    have hall : ∀ m ∈ parts.tail.filterMap matchNegative, ¬Counts doc (joined parts) m := by
      intro m hm
      obtain ⟨f,p,r,hparts,hf,hp⟩ := exists_of_mem_tail hm
      refine hres.not_counts h hparts hf hp fun es hes => hex ⟨f,p,r,m,es,hparts,hp,hes⟩
    rw [foldl_replaceNegative hall,gjsonGet_joined hne hdots,← walk_childFromEnd hplain,h]

def letters : Json := .obj [("a",.arr [.arr [.str "x"],.arr [.str "y"]])]

theorem resolves_last : gjsonGet letters
    (processNegativeIndex letters (joined [['a'],['-','1'],['0']])) = some (.str "y") := by
  refine resolves_negative letters (.str "y") [['a'],['-','1'],['0']] (by simp) (by simp) ?_ rfl
  intro front part rest m hparts hmat
  rcases front with _ | ⟨a,_ | ⟨b,_ | ⟨c,front⟩⟩⟩
  · cases hparts
    cases hmat
  · cases hparts
    exact ⟨fun elements harr => ⟨by simp,by decide,harr⟩,fun members hobj => by cases hobj⟩
  · cases hparts
    cases hmat
  · simp at hparts

theorem second_index_lost : walk childFromEnd [['a'],['-','1'],['-','1']] letters = some (.str "y") ∧
    gjsonGet letters (processNegativeIndex letters "a.-1.-1".toList) = none := by
  exact ⟨rfl,rfl⟩

end LurusHub.NegativeIndex
