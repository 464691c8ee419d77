import Mathlib.Data.List.DropRight

/-! Names written into one text with a separator, and read back trimmed and without the empty ones. -/
namespace LurusHub.NameLists
open List

variable {α : Type*} [DecidableEq α]

def trim (blank : α → Bool) (s : List α) : List α := (s.dropWhile blank).rdropWhile blank

def join (sep : α) (ls : List (List α)) : List α := [sep].intercalate ls

def nonempty (blank : α → Bool) (ls : List (List α)) : List (List α) := (ls.map (trim blank)).filter (· ≠ [])

def names (blank : α → Bool) (sep : α) (text : List α) : List (List α) := nonempty blank (text.splitOn sep)

variable {blank : α → Bool} {sep : α}

structure Clean (blank : α → Bool) (sep : α) (x : List α) : Prop where
  ne : x ≠ []
  trimmed : trim blank x = x
  free : sep ∉ x

omit [DecidableEq α] in
lemma trim_trim (s : List α) : trim blank (trim blank s) = trim blank s := by
  have hd : (trim blank s).dropWhile blank = trim blank s := by
    obtain ⟨t,ht⟩ : trim blank s <+: s.dropWhile blank := rdropWhile_prefix blank _
    cases hu : trim blank s with
    | nil => rfl
    | cons a u =>
      have ha := dropWhile_idempotent blank s
      rw [← ht,hu,cons_append,dropWhile_eq_self_iff] at ha
      exact dropWhile_eq_self_iff.mpr fun _ => ha (Nat.succ_pos _)
  rw [trim,hd]
  exact rdropWhile_idempotent blank _

lemma names_append (s t : List α) : names blank sep (s++sep::t) = names blank sep s++names blank sep t := by
  simp [names,nonempty,splitOn_append_cons_self]

@[simp] lemma names_nil : names blank sep [] = [] := by simp [names,nonempty,trim]

lemma names_join (ls : List (List α)) : names blank sep (join sep ls) = ls.flatMap (names blank sep) := by
  induction ls with
  | nil => simp [join]
  | cons l ls ih =>
    cases ls with
    | nil => simp [join]
    | cons m ls =>
      rw [flatMap_cons,← ih,← names_append,join,intercalate_cons_cons]
      simp [join]

lemma Clean.names (h : Clean blank sep x) : names blank sep x = [x] := by
  simp [NameLists.names,nonempty,splitOn_eq_singleton h.free,h.trimmed,h.ne]

lemma not_mem_of_mem_splitOn {s : List α} (h : l ∈ s.splitOn sep) : sep ∉ l := by
  induction s generalizing l with
  | nil => simp_all
  | cons c s ih =>
    rw [splitOn_cons_eq_if_modifyHead] at h
    split at h
    · rcases mem_cons.mp h with rfl | h
      · exact not_mem_nil
      · exact ih h
    · next hc =>
      cases hs : s.splitOn sep with
      | nil => exact absurd hs (splitOn_ne_nil sep s)
      | cons m ms =>
        rw [hs] at h ih
        rcases mem_cons.mp h with rfl | h
        · have hne : sep ≠ c := fun he => hc (by simp [he])
          simpa [hne] using ih mem_cons_self
        · exact ih (mem_cons_of_mem m h)

lemma clean_of_mem (h : x ∈ names blank sep s) : Clean blank sep x := by
  simp only [names,nonempty,mem_filter,mem_map,decide_eq_true_eq] at h
  obtain ⟨⟨l,hl,rfl⟩,hne⟩ := h
  have hsub : trim blank l ⊆ l := fun _ h => (dropWhile_suffix blank).subset (( rdropWhile_prefix blank _).subset h)
  exact ⟨hne,trim_trim l,fun hs => not_mem_of_mem_splitOn hl (hsub hs)⟩

end LurusHub.NameLists
