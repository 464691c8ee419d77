import Mathlib.Data.List.Basic

/-! Texts sent in fragments. A sender that may drop fragments, but never changes or
reorders one, delivers the whole text exactly when every fragment it dropped was empty. -/
namespace LurusHub.Fragments
open List

variable {α β : Type*}

def concat : List String → String
  | [] => ""
  | s::ss => s++concat ss

@[simp] lemma concat_nil : concat [] = "" := rfl

@[simp] lemma concat_cons (s : String) (ss : List String) : concat (s::ss) = s++concat ss := rfl

@[simp] lemma concat_append : concat (ss++ts) = concat ss++concat ts := by
  induction ss with
  | nil => simp
  | cons s ss ih => simp [ih,String.append_assoc]

@[simp] lemma concat_replicate_empty : concat (List.replicate n "") = "" := by
  induction n with
  | zero => rfl
  | succ n ih => simp [replicate_succ,ih]

lemma concat_flatMap (f : α → List β) (g : β → String) (l : List α) :
    concat ((l.flatMap f).map g) = concat (l.map fun a => concat ((f a).map g)) := by
  induction l with
  | nil => rfl
  | cons a l ih => simp [ih]

lemma concat_length_le {kept said : α → String} {l : List α} (h : ∀ a ∈ l, kept a = said a ∨ kept a = "") :
    (concat (l.map kept)).length ≤ (concat (l.map said)).length := by
  induction l with
  | nil => simp
  | cons a l ih =>
    have ht := ih fun b hb => h b (mem_cons_of_mem a hb)
    rcases h a mem_cons_self with ha | ha
    · simpa [ha] using ht
    · simp only [map_cons,concat_cons,ha,String.empty_append,String.length_append]
      omega

theorem concat_eq_iff {kept said : α → String} {l : List α} (h : ∀ a ∈ l, kept a = said a ∨ kept a = "") :
    concat (l.map kept) = concat (l.map said) ↔ ∀ a ∈ l, kept a = said a := by
  refine ⟨fun heq => ?_,fun hall => by rw [map_congr_left hall]⟩
  induction l with
  | nil => simp
  | cons a l ih =>
    have hrest : ∀ b ∈ l, kept b = said b ∨ kept b = "" := fun b hb => h b (mem_cons_of_mem a hb)
    have hle := concat_length_le hrest
    have hlen := congrArg String.length heq
    simp only [map_cons,concat_cons,String.length_append] at hlen
    have hhead : kept a = said a := by
      rcases h a mem_cons_self with ha | ha
      · exact ha
      · rw [ha] at hlen
        have hzero : (said a).length = 0 := by
          simp only [String.length_empty] at hlen
          omega
        rw [ha,String.length_eq_zero_iff.mp hzero]
    have htail : concat (l.map kept) = concat (l.map said) := by
      simp only [map_cons,concat_cons,hhead] at heq
      exact String.append_right_inj _ |>.mp heq
    exact forall_mem_cons.mpr ⟨hhead,ih hrest htail⟩

theorem routed_eq_iff {ι : Type*} [DecidableEq ι] {dest src : α → Option ι} {text : α → String} {l : List α} {d : ι}
    (hdest : ∀ a ∈ l, dest a = none ∨ dest a = src a ∨ dest a = some d) (hsrc : ∀ a ∈ l, (src a).isSome) :
    (∀ k, concat (l.map fun a => if dest a = some k then text a else "") =
        concat (l.map fun a => if src a = some k then text a else "")) ↔
      ∀ a ∈ l, dest a = src a ∨ text a = "" := by
  constructor
  · intro heq
    -- away from `d` no fragment arrives that does not belong there
    have hother : ∀ a ∈ l, src a ≠ some d → dest a = src a ∨ text a = "" := by
      intro a ha hne
      obtain ⟨k,hk⟩ := Option.isSome_iff_exists.mp (hsrc a ha)
      have hkd : k ≠ d := fun h => hne (h ▸ hk)
      have hkept := (concat_eq_iff (l:=l) (fun b hb => by
        rcases hdest b hb with h | h | h
        · exact .inr (by simp [h])
        · exact .inl (by simp [h])
        · exact .inr (by simp [h,Ne.symm hkd]))).mp (heq k) a ha
      grind
    intro a ha
    by_cases hd : src a = some d
    · have hkept := (concat_eq_iff (l:=l) (fun b hb => by
        by_cases hb' : src b = some d
        · rcases hdest b hb with h | h | h
          · exact .inr (by simp [h])
          · exact .inl (by simp [h])
          · exact .inl (by simp [h,hb'])
        · rcases hother b hb hb' with h | h
          · exact .inl (by simp [h])
          · exact .inl (by simp [h]))).mp (heq d) a ha
      grind
    · exact hother a ha hd
  · intro h k
    congr 1
    apply map_congr_left
    intro a ha
    rcases h a ha with h | h <;> simp [h]

end LurusHub.Fragments
