import Mathlib.Data.List.Basic

/-! JSON documents that keep repeated member names, and two readers: one takes the first member of a
name, the other the last whose name it accepts. `taken` says whether both take the same. Edits are
addressed by paths of the first reader. -/
namespace LurusHub
open List

inductive Json where
  | null
  | bool (b : Bool)
  | num (literal : String)
  | str (s : String)
  | arr (elements : List Json)
  | obj (members : List (String × Json))

namespace JsonTree

abbrev Members := List (String × Json)

def first? (name : String) : Members → Option Json
  | [] => none
  | (n,v)::ms => if n = name then some v else first? name ms

def last? (accepts : String → Bool) : Members → Option Json
  | [] => none
  | (n,v)::ms => (last? accepts ms).or (if accepts n then some v else none)

/-- The last member with an accepted name, marked with whether it is the first one called `name`. -/
def taken (name : String) (accepts : String → Bool) : Members → Option (Bool × Json)
  | [] => none
  | (n,v)::ms =>
    (if n = name then (last? accepts ms).map (false,·) else taken name accepts ms).or
      (if accepts n then some (decide (n = name),v) else none)

def modifyFirst (name : String) (f : Json → Json) : Members → Members
  | [] => []
  | (n,v)::ms => if n = name then (n,f v)::ms else (n,v)::modifyFirst name f ms

section
variable {name : String} {accepts : String → Bool} {f g : Json → Json} {ms : Members}

@[simp] lemma modifyFirst_id : modifyFirst name id ms = ms := by
  induction ms with
  | nil => rfl
  | cons m ms ih =>
    simp [modifyFirst,ih]

lemma modifyFirst_comp : modifyFirst name g (modifyFirst name f ms) = modifyFirst name (g ∘ f) ms := by
  induction ms with
  | nil => rfl
  | cons m ms ih =>
    rcases m with ⟨n,v⟩
    by_cases hn : n = name <;> simp [modifyFirst,hn,ih]

lemma first?_filter {p : String → Bool} (h : p name = true) :
    first? name (ms.filter fun m => p m.1) = first? name ms := by
  induction ms with
  | nil => rfl
  | cons m ms ih =>
    rcases m with ⟨n,v⟩
    by_cases hn : n = name
    · simp [first?,hn,h]
    · cases hk : p n <;> simp [first?,hn,hk,ih]

lemma first?_map (g : String → Json → Json) :
    first? name (ms.map fun m => (m.1,g m.1 m.2)) = (first? name ms).map (g name) := by
  induction ms with
  | nil => rfl
  | cons m ms ih =>
    rcases m with ⟨n,v⟩
    by_cases hn : n = name <;> simp [first?,hn,ih]

lemma modifyFirst_of_first?_none (h : first? name ms = none) : modifyFirst name f ms = ms := by
  induction ms with
  | nil => rfl
  | cons m ms ih =>
    rcases m with ⟨n,v⟩
    by_cases hn : n = name
    · simp [first?,hn] at h
    · simp only [first?,hn] at h
      simp [modifyFirst,hn,ih h]

lemma modifyFirst_congr (h : first? name ms = some v) (hv : f v = g v) :
    modifyFirst name f ms = modifyFirst name g ms := by
  induction ms with
  | nil => rfl
  | cons m ms ih =>
    rcases m with ⟨n,w⟩
    by_cases hn : n = name
    · simp only [first?,hn,if_true,Option.some.injEq] at h
      subst h
      simp [modifyFirst,hn,hv]
    · simp only [first?,hn] at h
      simp [modifyFirst,hn,ih h]

lemma last?_modifyFirst_of_not (h : accepts name = false) :
    last? accepts (modifyFirst name f ms) = last? accepts ms := by
  induction ms with
  | nil => rfl
  | cons m ms ih =>
    rcases m with ⟨n,v⟩
    by_cases hn : n = name
    · subst hn
      simp [modifyFirst,last?,h]
    · simp [modifyFirst,last?,hn,ih]

lemma taken_snd : (taken name accepts ms).map Prod.snd = last? accepts ms := by
  induction ms with
  | nil => rfl
  | cons m ms ih =>
    rcases m with ⟨n,v⟩
    by_cases hn : n = name
    · cases hl : last? accepts ms <;> simp [taken,last?,hn,hl]
    · rw [last?,← ih]
      cases ht : taken name accepts ms <;> simp [taken,hn,ht]

theorem last?_modifyFirst : last? accepts (modifyFirst name f ms) =
    (taken name accepts ms).map fun t => if t.1 then f t.2 else t.2 := by
  induction ms with
  | nil => rfl
  | cons m ms ih =>
    rcases m with ⟨n,v⟩
    by_cases hn : n = name
    · cases hl : last? accepts ms <;> simp [modifyFirst,taken,last?,hn,hl]
    · cases ht : taken name accepts ms <;> simp [modifyFirst,taken,last?,hn,ht,ih]

lemma first?_of_taken (h : taken name accepts ms = some (true,v)) : first? name ms = some v := by
  induction ms with
  | nil => simp [taken] at h
  | cons m ms ih =>
    rcases m with ⟨n,w⟩
    by_cases hn : n = name
    · cases hl : last? accepts ms <;> simp [taken,hn,hl] at h
      simp [first?,hn,h.2]
    · cases ht : taken name accepts ms with
      | none => simp [taken,hn,ht] at h
      | some t =>
        simp only [taken,hn,if_false,ht,Option.some_or,Option.some.injEq] at h
        simp [first?,hn,ih (ht.trans (congrArg some h))]

end

inductive Step where
  | key (name : String)
  | index (i : ℕ)
  deriving DecidableEq

abbrev Path := List Step

/-- The members or elements of a value with the step to each; a scalar is visited as a whole. -/
def forEach : Json → List (Step × Json)
  | .arr vs => vs.zipIdx.map fun p => (.index p.2,p.1)
  | .obj ms => ms.map fun m => (.key m.1,m.2)
  | v => [(.key "",v)]

lemma mem_forEach (h : v ∈ vs) : ∃ step, (step,v) ∈ forEach (.arr vs) := by
  obtain ⟨i,hi⟩ := mem_iff_getElem?.mp h
  exact ⟨.index i,mem_map.mpr ⟨(v,i),mem_zipIdx_iff_getElem?.mpr hi,rfl⟩⟩

/-- Replace the value at a path; a path that leads nowhere changes nothing. -/
def setAt : Path → Json → Json → Json
  | [],new,_ => new
  | .key name::path,new,.obj ms => .obj (modifyFirst name (setAt path new) ms)
  | .index i::path,new,.arr vs => .arr (vs.modify i (setAt path new))
  | _,_,v => v

def setAll (edits : List (Path × Json)) (doc : Json) : Json :=
  edits.foldl (fun d e => setAt e.1 e.2 d) doc

def under (step : Step) (edits : List (Path × Json)) : List (Path × Json) :=
  edits.map fun e => (step::e.1,e.2)

section
variable {edits : List (Path × Json)} {name : String} {ms : Members} {vs : List Json} {doc : Json}

@[simp] lemma setAll_nil : setAll [] doc = doc := rfl

lemma setAll_append (edits' : List (Path × Json)) :
    setAll (edits++edits') doc = setAll edits' (setAll edits doc) := by
  simp [setAll]

lemma setAll_under_key :
    setAll (under (.key name) edits) (.obj ms) = .obj (modifyFirst name (setAll edits) ms) := by
  induction edits generalizing ms with
  | nil =>
    have hid : setAll [] = id := funext fun _ => rfl
    simp [under,hid]
  | cons e edits ih =>
    have hcons : setAll (e::edits) = setAll edits ∘ setAt e.1 e.2 := funext fun _ => rfl
    rw [hcons,← modifyFirst_comp,← ih]
    rfl

lemma setAll_under_index :
    setAll (under (.index i) edits) (.arr vs) = .arr (vs.modify i (setAll edits)) := by
  induction edits generalizing vs with
  | nil =>
    have hid : setAll [] = id := funext fun _ => rfl
    simp [under,hid]
  | cons e edits ih =>
    have hcons : setAll (e::edits) = setAll edits ∘ setAt e.1 e.2 := funext fun _ => rfl
    rw [hcons,← modify_modify_eq,← ih]
    rfl

lemma modify_length {α : Type*} (f : α → α) (done : List α) (a : α) (rest : List α) :
    (done++a::rest).modify done.length f = done++f a::rest := by
  induction done with
  | nil => rfl
  | cons b done ih => simp [ih]

lemma setAll_elements (editsOf : Json → List (Path × Json)) :
    setAll ((forEach (.arr vs)).flatMap fun p => under p.1 (editsOf p.2)) (.arr vs) =
      .arr (vs.map fun v => setAll (editsOf v) v) := by
  -- the elements before the index are done, those from it on are untouched
  suffices h : ∀ done : List Json, setAll ((vs.zipIdx done.length).flatMap fun p => under (.index p.2) (editsOf p.1))
      (.arr (done++vs)) = .arr (done++vs.map fun v => setAll (editsOf v) v) by
    simpa [forEach,flatMap_map] using h []
  induction vs with
  | nil => simp
  | cons v vs ih =>
    intro done
    have hhere : (done++v::vs).modify done.length (setAll (editsOf v)) = (done++[setAll (editsOf v) v])++vs := by
      rw [modify_length]
      simp
    have hrest := ih (done++[setAll (editsOf v) v])
    simp only [length_append,length_singleton] at hrest
    rw [zipIdx_cons,flatMap_cons,setAll_append,setAll_under_index,hhere,hrest]
    simp

theorem setAll_members (ms : Members) (editsOf : Step × Json → List (Path × Json)) :
    ∃ ms', setAll ((forEach (.obj ms)).flatMap fun p => under p.1 (editsOf p)) (.obj ms) = .obj ms' := by
  suffices h : ∀ ms', ∃ ms'', setAll ((ms.map fun m => (Step.key m.1,m.2)).flatMap fun p => under p.1 (editsOf p))
      (.obj ms') = .obj ms'' from h ms
  induction ms with
  | nil => exact fun ms' => ⟨ms',rfl⟩
  | cons m ms ih =>
    intro ms'
    rw [map_cons,flatMap_cons,setAll_append,setAll_under_key]
    exact ih _

end

end JsonTree
end LurusHub
