import Mathlib.Data.List.Basic

/-! Values sent as deltas under an index: the first delta of an index starts a value, a later one
extends it. Values stand in the order in which the indices first appear. -/
namespace LurusHub.IndexedDeltas

structure Merge (δ κ : Type*) where
  start : δ → κ
  extend : κ → δ → κ

variable {ι δ κ : Type*} [DecidableEq ι] {M : Merge δ κ} {i : ι} {values : List (ι × κ)}

def mergeAt (M : Merge δ κ) (i : ι) (d : δ) : List (ι × κ) → List (ι × κ)
  | [] => [(i,M.start d)]
  | (j,v)::values => if j = i then (j,M.extend v d)::values else (j,v)::mergeAt M i d values

@[simp] lemma mergeAt_nil : mergeAt M i d [] = [(i,M.start d)] := rfl

lemma mergeAt_new (d : δ) (h : ∀ v ∈ values, v.1 ≠ i) : mergeAt M i d values = values++[(i,M.start d)] := by
  induction values with
  | nil => rfl
  | cons v values ih =>
    have hv := h v List.mem_cons_self
    have hrest := ih fun w hw => h w (List.mem_cons_of_mem v hw)
    simp [mergeAt,hv,hrest]

lemma mergeAt_old (h : ∀ w ∈ before, w.1 ≠ i) :
    mergeAt M i d (before++(i,v)::after) = before++(i,M.extend v d)::after := by
  induction before with
  | nil => simp [mergeAt]
  | cons w before ih =>
    have hw := h w List.mem_cons_self
    have hrest := ih fun w' hw' => h w' (List.mem_cons_of_mem w hw')
    simp [mergeAt,hw,hrest]

lemma mergeAt_mergeAt (hstart : M.extend (M.start d) d' = M.start e)
    (hext : ∀ v, M.extend (M.extend v d) d' = M.extend v e) :
    mergeAt M i d' (mergeAt M i d values) = mergeAt M i e values := by
  induction values with
  | nil => simp [mergeAt,hstart]
  | cons v values ih =>
    by_cases hv : v.1 = i
    · simp [mergeAt,hv,hext]
    · simp [mergeAt,hv,ih]

def mergeAll (M : Merge δ κ) (ds : List δ) (n : ℕ) (values : List (ℕ × κ)) : List (ℕ × κ) :=
  (ds.zipIdx n).foldl (fun values p => mergeAt M p.2 p.1 values) values

def numbered (n : ℕ) (vs : List κ) : List (ℕ × κ) := (vs.zipIdx n).map fun p => (p.2,p.1)

lemma numbered_cons : numbered n (v::vs) = (n,v)::numbered (n+1) vs := by
  simp [numbered]

@[simp] lemma numbered_snd (n : ℕ) (vs : List κ) : (numbered n vs).map Prod.snd = vs := by
  induction vs generalizing n with
  | nil => rfl
  | cons v vs ih => simp [numbered_cons,ih]

lemma mergeAll_cons (values : List (ℕ × κ)) :
    mergeAll M (d::ds) n values = mergeAll M ds (n+1) (mergeAt M n d values) := rfl

lemma lt_succ_of_mem_append {values : List (ℕ × κ)} (h : ∀ v ∈ values, v.1 < n) (v : κ) :
    ∀ w ∈ values++[(n,v)], w.1 < n+1 :=
  List.forall_mem_append.mpr ⟨fun w hw => Nat.lt_succ_of_lt (h w hw),List.forall_mem_singleton.mpr (Nat.lt_succ_self n)⟩

lemma mergeAll_new {values : List (ℕ × κ)} (h : ∀ v ∈ values, v.1 < n) (ds : List δ) :
    mergeAll M ds n values = values++numbered n (ds.map M.start) := by
  induction ds generalizing n values with
  | nil => simp [mergeAll,numbered]
  | cons d ds ih =>
    have hnew : mergeAt M n d values = values++[(n,M.start d)] := mergeAt_new d fun v hv => Nat.ne_of_lt (h v hv)
    rw [mergeAll_cons,hnew,ih (lt_succ_of_mem_append h _),List.map_cons,numbered_cons]
    simp

lemma mergeAll_again (h : ∀ v ∈ before, v.1 < n) {vs : List κ} {ds : List δ}
    (hlen : ds.length = vs.length) :
    mergeAll M ds n (before++numbered n vs) = before++numbered n (List.zipWith M.extend vs ds) := by
  induction ds generalizing n before vs with
  | nil =>
    obtain rfl := List.length_eq_zero_iff.mp hlen.symm
    simp [mergeAll,numbered]
  | cons d ds ih =>
    cases vs with
    | nil => simp at hlen
    | cons v vs =>
      have hold : mergeAt M n d (before++numbered n (v::vs)) = (before++[(n,M.extend v d)])++numbered (n+1) vs := by
        rw [numbered_cons,mergeAt_old fun w hw => Nat.ne_of_lt (h w hw)]
        simp
      have hrest := ih (lt_succ_of_mem_append h (M.extend v d)) (show ds.length = vs.length by simpa using hlen)
      rw [mergeAll_cons,hold,hrest,List.zipWith_cons_cons,numbered_cons]
      simp

theorem mergeAll_split (hsplit : ∀ d, M.extend (M.start (a d)) (b d) = M.start d)
    {values : List (ℕ × κ)} (h : ∀ v ∈ values, v.1 < n) (ds : List δ) :
    mergeAll M (ds.map b) n (mergeAll M (ds.map a) n values) = mergeAll M ds n values := by
  rw [mergeAll_new h,mergeAll_new h,mergeAll_again h (by simp)]
  simp [hsplit]

end LurusHub.IndexedDeltas
