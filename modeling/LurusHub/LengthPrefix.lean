import Mathlib.Algebra.Order.BigOperators.Group.List
import Mathlib.Algebra.Order.Ring.Int

/-! Fields with their length in front: a header with the length, a separator, the field and a
terminator. A sequence of such fields can be read back. Lengths are counted by the size of the
letters. -/
namespace LurusHub.LengthPrefix
open List

variable {A : Type*} (size : A → ℕ) (header : ℕ → List A) (sep stop : A)

def field (s : List A) : List A := header (s.map size).sum++sep::(s++[stop])

variable {size header sep stop}

lemma split_at_sep {s t u v : List A} (hs : sep ∉ s) (ht : sep ∉ t) (h : s++sep::u = t++sep::v) : s = t ∧ u = v := by
  induction s generalizing t with
  | nil =>
    cases t with
    | nil => exact ⟨rfl,(cons.inj h).2⟩
    | cons b t => exact absurd (mem_cons.mpr (.inl (cons.inj h).1)) ht
  | cons a s ih =>
    cases t with
    | nil => exact absurd (mem_cons.mpr (.inl (cons.inj h).1.symm)) hs
    | cons b t =>
      obtain ⟨rfl,htail⟩ := cons.inj h
      obtain ⟨rfl,huv⟩ := ih (fun hmem => hs (mem_cons_of_mem _ hmem)) (fun hmem => ht (mem_cons_of_mem _ hmem)) htail
      exact ⟨rfl,huv⟩

lemma split_at_size (hsize : ∀ a, 0 < size a) {s t u v : List A} (hlen : (s.map size).sum = (t.map size).sum)
    (h : s++u = t++v) : s = t ∧ u = v := by
  induction s generalizing t with
  | nil =>
    cases t with
    | nil => exact ⟨rfl,h⟩
    | cons b t =>
      have := hsize b
      simp only [map_nil,sum_nil,map_cons,sum_cons] at hlen
      omega
  | cons a s ih =>
    cases t with
    | nil =>
      have := hsize a
      simp only [map_nil,sum_nil,map_cons,sum_cons] at hlen
      omega
    | cons b t =>
      obtain ⟨rfl,htail⟩ := cons.inj h
      simp only [map_cons,sum_cons,Nat.add_left_cancel_iff] at hlen
      obtain ⟨rfl,huv⟩ := ih hlen htail
      exact ⟨rfl,huv⟩

section
variable (hsize : ∀ a, 0 < size a) (hheader : Function.Injective header) (hsep : ∀ n, sep ∉ header n)
include hsize hheader hsep

lemma field_append_inj (h : field size header sep stop s++u = field size header sep stop t++v) :
    s = t ∧ u = v := by
  simp only [field,append_assoc,cons_append] at h
  obtain ⟨hhead,hbody⟩ := split_at_sep (hsep _) (hsep _) h
  obtain ⟨hst,htail⟩ := split_at_size hsize (hheader hhead) hbody
  exact ⟨hst,(cons.inj htail).2⟩

lemma fields_inj {ss ts : List (List A)} (hlen : ss.length = ts.length)
    (h : ss.flatMap (field size header sep stop) = ts.flatMap (field size header sep stop)) : ss = ts := by
  induction ss generalizing ts with
  | nil => exact (length_eq_zero_iff.mp hlen.symm).symm
  | cons s ss ih =>
    cases ts with
    | nil => cases hlen
    | cons t ts =>
      obtain ⟨rfl,htail⟩ := field_append_inj hsize hheader hsep h
      rw [ih (Nat.succ.inj hlen) htail]

end

end LurusHub.LengthPrefix
