import LurusHub.JsonTree

/-! Cleaning of response schemas for Gemini. The walk goes five levels down and only past nodes
whose `type` says object or array; `levelsLeft` is what remains of it at a place of the schema. -/
namespace LurusHub.GeminiSchema
open JsonTree List

def compositions : List String := ["allOf","anyOf","oneOf"]

def schemaType : Json → Option String
  | .obj ms => match first? "type" ms with | some (.str t) => some t | _ => none
  | _ => none

def deleted (type : Option String) : List String :=
  if type = some "object" then ["title","$schema","additionalProperties"] else ["title","$schema"]

/-- What becomes of a member: an object schema walks its property values and the elements of its
compositions, an array schema its items. -/
def cleanMember (f : Json → Json) (type : Option String) (name : String) (v : Json) : Json :=
  match v with
  | .obj ps =>
    if type = some "object" ∧ name = "properties" then .obj (ps.map fun p => (p.1,f p.2))
    else if type = some "array" ∧ name = "items" then f v else v
  | .arr vs => if type = some "object" ∧ name ∈ compositions then .arr (vs.map f) else v
  | _ => v

def clean : ℕ → Json → Json
  | n+1,.obj ms => let type := schemaType (.obj ms)
    .obj ((ms.filter fun m => m.1 ∉ deleted type).map fun m => (m.1,cleanMember (clean n) type m.1 m.2))
  | _,s => s

def removeAdditionalPropertiesWithDepth (schema : Json) (depth : ℕ) : Json := clean (5-depth) schema

inductive Place where
  | property (name : String)
  | items
  | element (composition : String) (i : ℕ)

def properties : Json → Members
  | .obj ms => match first? "properties" ms with | some (.obj ps) => ps | _ => []
  | _ => []

def sub? : Place → Json → Option Json
  | .property name,s => first? name (properties s)
  | .items,.obj ms => first? "items" ms
  | .element name i,.obj ms =>
    if name ∈ compositions then match first? name ms with | some (.arr vs) => vs[i]? | _ => none else none
  | _,_ => none

def at? : List Place → Json → Option Json
  | [],s => some s
  | p::ps,s => (sub? p s).bind (at? ps)

def has (name : String) : Json → Prop
  | .obj ms => name ∈ ms.map Prod.fst
  | _ => False

def walks : Place → Option String
  | .items => "array"
  | _ => "object"

/-- The levels the walk still goes down from a place; 0 means that it does not get there. -/
def levelsLeft : ℕ → List Place → Json → ℕ
  | n,[],_ => n
  | 0,_,_ => 0
  | n+1,p::ps,s => if schemaType s = walks p then (sub? p s).elim 0 (levelsLeft n ps) else 0

def Cleaned (s : Json) : Prop := ∀ ps v, at? ps s = some v → ¬has "additionalProperties" v ∧ ¬has "$schema" v

def NamesKept (s s' : Json) : Prop :=
  ∀ ps v, at? ps s = some v → ∃ v', at? ps s' = some v' ∧ (properties v').map Prod.fst = (properties v).map Prod.fst

/-- The two members stand only where the walk comes by, `additionalProperties` only in object schemas. -/
def WithinReach (s : Json) : Prop := ∀ ps v, at? ps s = some v →
  (has "$schema" v → 0 < levelsLeft 5 ps s) ∧
  (has "additionalProperties" v → 0 < levelsLeft 5 ps s ∧ schemaType v = some "object")

lemma clean_zero : clean 0 = id := by
  funext s
  cases s <;> rfl

lemma first?_clean (h : name ∉ deleted (schemaType (.obj ms))) :
    first? name ((ms.filter fun m => m.1 ∉ deleted (schemaType (.obj ms))).map fun m =>
      (m.1,cleanMember (clean n) (schemaType (.obj ms)) m.1 m.2)) =
    (first? name ms).map (cleanMember (clean n) (schemaType (.obj ms)) name) := by
  rw [first?_map,first?_filter (p := fun k => decide (k ∉ deleted _)) (by simpa using h)]

lemma properties_clean : properties (clean (n+1) s) =
    (properties s).map fun p => (p.1,(if schemaType s = some "object" then clean n else id) p.2) := by
  cases s with
  | obj ms =>
    have hk : "properties" ∉ deleted (schemaType (.obj ms)) := by unfold deleted; split <;> decide
    simp only [clean,properties,first?_clean hk]
    cases h : first? "properties" ms with
    | none => rfl
    | some v =>
      by_cases ht : schemaType (.obj ms) = some "object" <;> cases v <;> simp [cleanMember,ht,compositions]
  | _ => rfl

lemma sub?_clean : sub? p (clean (n+1) s) = (sub? p s).map (if schemaType s = walks p then clean n else id) := by
  cases p with
  | property name =>
    simp only [sub?,walks,properties_clean]
    exact first?_map fun _ => if schemaType s = some "object" then clean n else id
  | items =>
    cases s with
    | obj ms =>
      have hk : "items" ∉ deleted (schemaType (.obj ms)) := by unfold deleted; split <;> decide
      simp only [clean,sub?,walks,first?_clean hk]
      congr 1
      funext v
      by_cases ht : schemaType (.obj ms) = some "array" <;> cases v <;> cases n <;> simp [cleanMember,ht,clean,compositions]
    | _ => rfl
  | element name i =>
    cases s with
    | obj ms =>
      by_cases hn : name ∈ compositions
      · have hk : name ∉ deleted (schemaType (.obj ms)) := by
          simp only [compositions,mem_cons,not_mem_nil,or_false] at hn
          unfold deleted
          rcases hn with rfl | rfl | rfl <;> split <;> decide
        have hp : name ≠ "properties" := by rintro rfl; revert hn; decide
        have hi : name ≠ "items" := by rintro rfl; revert hn; decide
        simp only [clean,sub?,walks,first?_clean hk,hn,if_true]
        cases h : first? name ms with
        | none => rfl
        | some v =>
          by_cases ht : schemaType (.obj ms) = some "object" <;> cases v <;> simp [cleanMember,ht,hn,hp,hi]
      · simp [clean,sub?,hn]
    | _ => rfl

lemma at?_clean : at? ps (clean n s) = (at? ps s).map (clean (levelsLeft n ps s)) := by
  induction ps generalizing n s with
  | nil => cases n <;> rfl
  | cons p ps ih =>
    cases n with
    | zero => simp [levelsLeft,clean_zero]
    | succ n =>
      simp only [at?,sub?_clean,levelsLeft]
      cases sub? p s with
      | none => rfl
      | some t =>
        by_cases h : schemaType s = walks p
        · simpa [h] using ih
        · simp [h,clean_zero]

lemma has_clean : has name (clean n s) ↔ has name s ∧ (n = 0 ∨ name ∉ deleted (schemaType s)) := by
  cases n with
  | zero => simp [clean_zero]
  | succ n =>
    cases s with
    | obj ms => simp [clean,has,and_comm]
    | _ => simp [clean,has]

lemma names_clean : (properties (clean n s)).map Prod.fst = (properties s).map Prod.fst := by
  cases n with
  | zero => rw [clean_zero,id]
  | succ n => simp [properties_clean]

lemma namesKept_clean : NamesKept s (clean n s) := by
  intro ps v h
  exact ⟨_,by rw [at?_clean,h,Option.map_some],names_clean⟩

lemma not_has_clean : ¬has "additionalProperties" (clean n s) ∧ ¬has "$schema" (clean n s) ↔
    (has "$schema" s → 0 < n) ∧ (has "additionalProperties" s → 0 < n ∧ schemaType s = some "object") := by
  have hs : "$schema" ∈ deleted (schemaType s) := by unfold deleted; split <;> decide
  have ha : "additionalProperties" ∈ deleted (schemaType s) ↔ schemaType s = some "object" := by
    unfold deleted
    split <;> simp_all
  rw [has_clean,has_clean,ha,Nat.pos_iff_ne_zero]
  tauto

theorem schema_cleaned_iff (s : Json) :
    Cleaned (removeAdditionalPropertiesWithDepth s 0) ∧ NamesKept s (removeAdditionalPropertiesWithDepth s 0) ↔
      WithinReach s := by
  have hk : NamesKept s (removeAdditionalPropertiesWithDepth s 0) := namesKept_clean
  rw [and_iff_left hk]
  refine forall_congr' fun ps => ?_
  rw [removeAdditionalPropertiesWithDepth,at?_clean]
  cases at? ps s <;> simp [not_has_clean]

/-- An optional object: the composition has no type of its own, so its elements keep the member. -/
def optionalObject : Json :=
  .obj [("type",.str "object"),("properties",.obj [("a",.obj [("anyOf",
    .arr [.obj [("type",.str "object"),("additionalProperties",.bool false)],.obj [("type",.str "null")]])])])]

theorem optionalObject_not_cleaned : ¬Cleaned (removeAdditionalPropertiesWithDepth optionalObject 0) := by
  intro h
  exact (h [.property "a",.element "anyOf" 0] (.obj [("type",.str "object"),("additionalProperties",.bool false)]) rfl).1
    (by simp [has])

end LurusHub.GeminiSchema
