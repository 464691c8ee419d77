import Mathlib.Data.List.Infix
import Mathlib.Data.Nat.Digits.Defs

/-! The first occurrence of a word in a text, and decimal numbers in it. -/
namespace LurusHub.TextCut
open List

variable {α : Type*} [DecidableEq α]

/-- What stands before and after the first occurrence of `sep`. -/
def cut (sep : List α) : List α → Option (List α × List α)
  | [] => if sep = [] then some ([],[]) else none
  | c::s => if sep <+: c::s then some ([],(c::s).drop sep.length) else (cut sep s).map fun p => (c::p.1,p.2)

lemma cut_cons_neg {c : α} (h : ¬sep <+: c::s) : cut sep (c::s) = (cut sep s).map fun p => (c::p.1,p.2) :=
  if_neg h

lemma cut_eq_some {sep s before after : List α} (h : cut sep s = some (before,after)) : s = before++sep++after := by
  induction s generalizing before with
  | nil =>
    simp only [cut] at h
    split_ifs at h with hsep
    cases h
    simp [hsep]
  | cons c s ih =>
    simp only [cut] at h
    split_ifs at h with hsep
    · cases h
      exact (prefix_iff_eq_append.mp hsep).symm
    · obtain ⟨⟨b,a⟩,hcut,hpair⟩ := Option.map_eq_some_iff.mp h
      cases hpair
      rw [ih hcut]
      rfl

lemma cut_append_left (hc : c ∉ before) (sep s : List α) :
    cut (c::sep) (before++s) = (cut (c::sep) s).map fun p => (before++p.1,p.2) := by
  induction before with
  | nil => simp
  | cons d before ih =>
    obtain ⟨hd,hbefore⟩ := not_or.mp (mem_cons.not.mp hc)
    rw [cons_append,cut_cons_neg fun hsep => hd (cons_prefix_cons.mp hsep).1,ih hbefore,Option.map_map]
    rfl

lemma cut_self_append (c : α) (sep after : List α) : cut (c::sep) (c::sep++after) = some ([],after) := by
  have hsep := prefix_append (c::sep) after
  rw [cons_append] at hsep ⊢
  rw [cut]
  simp

lemma cut_of_not_mem (hc : c ∉ before) (sep after : List α) :
    cut (c::sep) (before++(c::sep++after)) = some (before,after) := by
  rw [cut_append_left hc,cut_self_append]
  simp

lemma not_mem_of_cut {s before after : List α} (h : cut [c] s = some (before,after)) : c ∉ before := by
  induction s generalizing before with
  | nil => simp [cut] at h
  | cons d s ih =>
    simp only [cut] at h
    split_ifs at h with hsep
    · cases h
      exact not_mem_nil
    · obtain ⟨⟨b,a⟩,hcut,hpair⟩ := Option.map_eq_some_iff.mp h
      cases hpair
      rw [mem_cons]
      rintro (rfl | hmem)
      · exact hsep (prefix_append [c] s)
      · exact ih hcut hmem

section Separated
variable {d : α} {sep : List α} (hd : d ∉ sep)
include hd

omit [DecidableEq α] in
lemma prefix_of_separated {x s : List α} (h : sep <+: x++d::s) : sep <+: x := by
  rcases prefix_or_prefix_of_prefix h (prefix_append x (d::s)) with hx | ⟨r,rfl⟩
  · exact hx
  · cases r with
    | nil => simp
    | cons c r =>
      obtain ⟨rfl,_⟩ := cons_prefix_cons.mp ((prefix_append_right_inj x).mp h)
      simp at hd

theorem cut_separated (hx : ¬sep <:+: x) (s : List α) :
    cut sep (x++d::s) = (cut sep s).map fun p => (x++d::p.1,p.2) := by
  have hnot : ¬sep <+: x++d::s := fun h => hx (prefix_of_separated hd h).isInfix
  induction x with
  | nil => exact cut_cons_neg hnot
  | cons c x ih =>
    have hx' : ¬sep <:+: x := fun h => hx (h.trans (suffix_cons c x).isInfix)
    rw [cons_append] at hnot
    rw [cons_append,cut_cons_neg hnot,ih hx' fun h => hx' (prefix_of_separated hd h).isInfix,Option.map_map]
    rfl

lemma cut_cons_separated (hx : ¬sep <:+: x) (y : List α) : cut (d::sep) (x++(d::sep++y)) = some (x,y) := by
  induction x with
  | nil => exact cut_self_append d sep y
  | cons c x ih =>
    have hnot : ¬d::sep <+: c::(x++(d::sep++y)) := fun h => by
      have hpre := prefix_of_separated hd (cons_prefix_cons.mp h).2
      exact hx (hpre.isInfix.trans (suffix_cons c x).isInfix)
    rw [cons_append,cut_cons_neg hnot,ih fun h => hx (h.trans (suffix_cons c x).isInfix)]
    rfl

end Separated

def decimal (n : ℕ) : List Char := Nat.toDigits 10 n

def ofDecimal? (s : List Char) : Option ℕ :=
  if s ≠ [] ∧ s.all Char.isDigit then some (Nat.ofDigitChars 10 s 0) else none

lemma isDigit_of_mem_decimal (h : c ∈ decimal n) : c.isDigit :=
  Nat.isDigit_of_mem_toDigits (by decide) (by decide) h

lemma ofDecimal?_decimal (n : ℕ) : ofDecimal? (decimal n) = some n := by
  have hdigits : (decimal n).all Char.isDigit := all_eq_true.mpr fun _ h => isDigit_of_mem_decimal h
  rw [ofDecimal?,if_pos ⟨Nat.toDigits_ne_nil,hdigits⟩,decimal,Nat.ofDigitChars_ten_toDigits]

lemma decimal_injective : Function.Injective decimal := fun a b h => by
  have hread := ofDecimal?_decimal a
  rw [h,ofDecimal?_decimal] at hread
  exact (Option.some.inj hread).symm

end LurusHub.TextCut
