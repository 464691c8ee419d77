import Mathlib.Data.List.Induction

/-! The bank card detector. `bankRe` takes up to 19 digits, single spaces and dashes among them,
before the checks run, so a run of digits is cut into groups of 19 from its start and a card is found
if one of the groups it lies in is a card. Texts are lists of characters. -/
namespace LurusHub.BankCards
open List hiding span

def isSeparator (c : Char) : Bool := c = ' ' || c = '-'

/-- The longest match of `(?:[ -]?[0-9]){0,n}`. -/
def repeatGroup : ℕ → List Char → List Char
  | 0,_ | _,[] => []
  | n+1,c::s =>
    if c.isDigit then c::repeatGroup n s
    else match s with
      | d::s => if isSeparator c && d.isDigit then c::d::repeatGroup n s else []
      | [] => []

def removeSeparators (raw : List Char) : List Char := raw.filter fun c => !isSeparator c

def bankRe : List Char → Option (List Char)
  | c::s => if c.isDigit ∧ 15 ≤ (removeSeparators (repeatGroup 18 s)).length then some (c::repeatGroup 18 s) else none
  | [] => none

/-- `FindAllStringIndex`: matches from the left that do not overlap; `skip` characters belong to the last one. -/
def findAllStringIndex (re : List Char → Option (List Char)) : ℕ → ℕ → List Char → List (ℕ × ℕ)
  | _,_,[] => []
  | skip+1,i,_::s => findAllStringIndex re skip (i+1) s
  | 0,i,c::s =>
    match re (c::s) with
    | some raw => (i,i+raw.length)::findAllStringIndex re (raw.length-1) (i+1) s
    | none => findAllStringIndex re 0 (i+1) s

def luhnSum : Bool → List Char → ℕ
  | _,[] => 0
  | double,c::s =>
    let d := c.toNat - '0'.toNat
    (if double then if d*2 > 9 then d*2-9 else d*2 else d)+luhnSum (!double) s

def luhnValid (digits : List Char) : Bool :=
  2 ≤ digits.length && digits.all Char.isDigit && luhnSum false digits.reverse%10 == 0

def boundedBy (s : List Char) (start stop : ℕ) (glued : Char → Bool) : Bool :=
  !(s.take start).getLast?.any glued && !(s.drop stop).head?.any glued

def findBankCard (s : List Char) : List (ℕ × ℕ) :=
  (findAllStringIndex bankRe 0 0 s).filter fun l =>
    let digits := removeSeparators ((s.take l.2).drop l.1)
    16 ≤ digits.length && digits.length ≤ 19 && boundedBy s l.1 l.2 Char.isDigit && luhnValid digits

inductive Groups : ℕ → List Char → Prop
  | nil : Groups 0 []
  | digit {n : ℕ} {d : Char} {s : List Char} : d.isDigit → Groups n s → Groups (n+1) (d::s)
  | separated {n : ℕ} {c d : Char} {s : List Char} : isSeparator c → d.isDigit → Groups n s → Groups (n+1) (c::d::s)

/-- An occurrence of 16 to 19 digits that passes the check, with no digit next to it. -/
def Card (s : List Char) (span : ℕ × ℕ) : Prop :=
  ∃ pre d t post n, s = pre++d::t++post ∧ span = (pre.length,pre.length+(d::t).length) ∧ d.isDigit ∧
    Groups n t ∧ 15 ≤ n ∧ n ≤ 18 ∧
    luhnValid (removeSeparators (d::t)) ∧ ¬pre.getLast?.any Char.isDigit ∧ ¬post.head?.any Char.isDigit

/-- The digits of the run so far, and whether a separator came after the last of them. -/
def runStep : ℕ × Bool → Char → ℕ × Bool
  | (n,gap),c => if c.isDigit then (n+1,false) else if isSeparator c && !gap then (n,true) else (0,false)

/-- How many digits of the run that reaches the end of a text it has. -/
def digitsBefore (pre : List Char) : ℕ := (pre.foldl runStep (0,false)).1

/-- What `bankRe` takes at a place that is a multiple of 19 digits into its run. -/
def Taken (s : List Char) (span : ℕ × ℕ) : Prop :=
  ∃ pre raw post, s = pre++(raw++post) ∧ span = (pre.length,pre.length+raw.length) ∧ bankRe (raw++post) = some raw ∧
    19 ∣ digitsBefore pre

lemma not_isSeparator (h : c.isDigit) : isSeparator c = false := by
  by_contra hc
  simp only [isSeparator,Bool.not_eq_false,Bool.or_eq_true,decide_eq_true_eq] at hc
  rcases hc with rfl | rfl <;> cases h

lemma not_isDigit (h : isSeparator c) : c.isDigit = false := by
  by_contra hc
  simp [not_isSeparator (eq_true_of_ne_false hc)] at h

lemma Groups.length_removeSeparators (h : Groups n t) : (removeSeparators t).length = n := by
  unfold removeSeparators
  induction h with
  | nil => rfl
  | digit hd _ ih => simp [not_isSeparator hd,ih]
  | separated hc hd _ ih => simp [hc,not_isSeparator hd,ih]

lemma repeatGroup_digit (hd : d.isDigit) : repeatGroup (n+1) (d::s) = d::repeatGroup n s := by
  simp [repeatGroup,hd]

lemma repeatGroup_separated (hc : isSeparator c) (hd : d.isDigit) :
    repeatGroup (n+1) (c::d::s) = c::d::repeatGroup n s := by
  simp [repeatGroup,not_isDigit hc,hc,hd]

lemma repeatGroup_sound (n : ℕ) (s : List Char) : repeatGroup n s <+: s ∧ ∃ k ≤ n, Groups k (repeatGroup n s) := by
  fun_induction repeatGroup n s with
  | case1 | case2 => exact ⟨ nil_prefix,0,Nat.zero_le _,.nil⟩
  | case3 n c s hc ih =>
    obtain ⟨hpre,k,hk,hgro⟩ := ih
    exact ⟨cons_prefix_cons.mpr ⟨rfl,hpre⟩,k+1,Nat.succ_le_succ hk,.digit hc hgro⟩
  | case4 n c hc d s hcd ih =>
    obtain ⟨hpre,k,hk,hgro⟩ := ih
    obtain ⟨hsep,hd⟩ := (Bool.and_eq_true _ _).mp hcd
    refine ⟨?_,k+1,Nat.succ_le_succ hk,.separated hsep hd hgro⟩
    exact cons_prefix_cons.mpr ⟨rfl,cons_prefix_cons.mpr ⟨rfl,hpre⟩⟩
  | case5 | case6 => exact ⟨ nil_prefix,0,Nat.zero_le _,.nil⟩

lemma repeatGroup_append (h : Groups k t) (hk : k ≤ n) (s : List Char) :
    repeatGroup n (t++s) = t++repeatGroup (n-k) s := by
  induction h generalizing n with
  | nil => rfl
  | digit hd _ ih =>
    obtain ⟨n,rfl⟩ := Nat.exists_eq_succ_of_ne_zero (by omega : n ≠ 0)
    rw [cons_append,repeatGroup_digit hd,ih (by omega),Nat.succ_sub_succ]
    rfl
  | separated hc hd _ ih =>
    obtain ⟨n,rfl⟩ := Nat.exists_eq_succ_of_ne_zero (by omega : n ≠ 0)
    rw [cons_append,cons_append,repeatGroup_separated hc hd,ih (by omega),Nat.succ_sub_succ]
    rfl

lemma digits_repeatGroup (hle : m ≤ n) (s : List Char) : (removeSeparators (repeatGroup m s)).length =
    min m (removeSeparators (repeatGroup n s)).length := by
  fun_induction repeatGroup n s generalizing m with
  | case1 => simp [Nat.le_zero.mp hle,repeatGroup,removeSeparators]
  | case2 => cases m <;> simp [repeatGroup,removeSeparators]
  | case3 n c s hc ih =>
    cases m with
    | zero => simp [repeatGroup,removeSeparators]
    | succ m =>
      have hrest := ih (Nat.le_of_succ_le_succ hle)
      simp only [repeatGroup_digit hc,removeSeparators,not_isSeparator hc,Bool.not_false,
        filter_cons_of_pos,length_cons] at hrest ⊢
      omega
  | case4 n c hc d s hcd ih =>
    obtain ⟨hsep,hd⟩ := (Bool.and_eq_true _ _).mp hcd
    cases m with
    | zero => simp [repeatGroup,removeSeparators]
    | succ m =>
      have hrest := ih (Nat.le_of_succ_le_succ hle)
      simp [repeatGroup_separated hsep hd,removeSeparators,hsep,not_isSeparator hd] at hrest ⊢
      omega
  | case5 n c hc d s hcd => cases m <;> simp [repeatGroup,removeSeparators,hc,hcd]
  | case6 n c hc => cases m <;> simp [repeatGroup,removeSeparators,hc]

lemma bankRe_eq_some (h : bankRe s = some raw) :
    raw <+: s ∧ ∃ d t n, raw = d::t ∧ d.isDigit ∧ Groups n t ∧ 15 ≤ n ∧ n ≤ 18 := by
  cases s with
  | nil => cases h
  | cons d s =>
    rw [bankRe] at h
    split_ifs at h with hd
    cases h
    obtain ⟨hpre,k,hk,hgro⟩ := repeatGroup_sound 18 s
    rw [hgro.length_removeSeparators] at hd
    exact ⟨cons_prefix_cons.mpr ⟨rfl,hpre⟩,d,_,k,rfl,hd.1,hgro,hd.2,hk⟩

/-- A place of the text and what the expression takes there. -/
def Matches (re : List Char → Option (List Char)) (s : List Char) (span : ℕ × ℕ) : Prop :=
  ∃ pre raw post, s = pre++(raw++post) ∧ re (raw++post) = some raw ∧ span = (pre.length,pre.length+raw.length)

section FindAll
variable {re : List Char → Option (List Char)} (hre : ∀ s raw, re s = some raw → raw ≠ [] ∧ raw <+: s)
include hre

lemma findAllStringIndex_sound (h : span ∈ findAllStringIndex re skip i s) :
    ∃ pre raw post, s = pre++(raw++post) ∧ re (raw++post) = some raw ∧ skip ≤ pre.length ∧
      span = (i+pre.length,i+pre.length+raw.length) := by
  induction s generalizing skip i with
  | nil => simp [findAllStringIndex] at h
  | cons c s ih =>
    have hlater : ∀ skip', skip ≤ skip'+1 → span ∈ findAllStringIndex re skip' (i+1) s →
      ∃ pre raw post, c::s = pre++(raw++post) ∧
        re (raw++post) = some raw ∧ skip ≤ pre.length ∧ span = (i+pre.length,i+pre.length+raw.length) := by
      intro skip' hskip hmem
      obtain ⟨pre,raw,post,rfl,hraw,hpre,rfl⟩ := ih hmem
      refine ⟨c::pre,raw,post,rfl,hraw,by rw [length_cons]; omega,?_⟩
      simp only [length_cons,Prod.mk.injEq]
      omega
    cases skip with
    | succ skip => exact hlater skip (Nat.le_refl _) h
    | zero =>
      rw [findAllStringIndex] at h
      split at h
      next raw hraw =>
        rcases mem_cons.mp h with rfl | h
        · obtain ⟨_,post,hpost⟩ := hre _ _ hraw
          exact ⟨[],raw,post,hpost.symm,by rwa [hpost],Nat.zero_le _,rfl⟩
        · exact hlater _ (Nat.zero_le _) h
      next => exact hlater 0 (Nat.zero_le _) h

lemma findAllStringIndex_sorted (skip i : ℕ) (s : List Char) :
    (findAllStringIndex re skip i s).Pairwise fun a b => a.2 ≤ b.1 := by
  induction s generalizing skip i with
  | nil => exact List.Pairwise.nil
  | cons c s ih =>
    cases skip with
    | succ skip => exact ih skip (i+1)
    | zero =>
      rw [findAllStringIndex]
      split
      next raw hraw =>
        refine List.Pairwise.cons (fun span hspan => ?_) (ih _ _)
        obtain ⟨pre,_,_,_,_,hskip,rfl⟩ := findAllStringIndex_sound hre hspan
        omega
      next => exact ih 0 (i+1)

lemma findAllStringIndex_complete (skip i : ℕ) (hraw : re (raw++post) = some raw) (hskip : skip ≤ pre.length)
    (hfree : ∀ span ∈ findAllStringIndex re skip i (pre++(raw++post)), span.1 < i+pre.length → span.2 ≤ i+pre.length) :
    (i+pre.length,i+pre.length+raw.length) ∈ findAllStringIndex re skip i (pre++(raw++post)) := by
  induction pre generalizing skip i with
  | nil =>
    obtain ⟨hne,_⟩ := hre _ _ hraw
    obtain ⟨c,t,rfl⟩ := exists_cons_of_ne_nil hne
    cases Nat.le_zero.mp hskip
    rw [cons_append] at hraw
    simp only [nil_append,cons_append,findAllStringIndex,hraw]
    exact mem_cons_self
  | cons c pre ih =>
    have hnext : i+(c::pre).length = i+1+pre.length := by rw [length_cons]; omega
    rw [hnext] at hfree ⊢
    rw [cons_append] at hfree ⊢
    cases skip with
    | succ skip => exact ih _ _ (Nat.le_of_succ_le_succ hskip) hfree
    | zero =>
      rw [findAllStringIndex] at hfree ⊢
      split at hfree
      next r hr =>
        rw [forall_mem_cons] at hfree
        have hlength := hfree.1 (by omega)
        exact mem_cons_of_mem _ (ih _ _ (by omega) hfree.2)
      next => exact ih _ _ (Nat.zero_le _) hfree

theorem mem_findAllStringIndex_iff {S : ℕ × ℕ → Prop} (hmatch : ∀ span, S span → Matches re s span)
    (hapart : ∀ a b, S a → S b → a.1 < b.1 → a.2 ≤ b.1)
    (hcover : ∀ b, Matches re s b → ¬S b → ∃ a, S a ∧ a.1 < b.1 ∧ b.1 < a.2) (span : ℕ × ℕ) :
    span ∈ findAllStringIndex re 0 0 s ↔ S span := by
  have hfound : ∀ a ∈ findAllStringIndex re 0 0 s, Matches re s a := by
    intro a ha
    obtain ⟨pre,raw,post,hs,hraw,_,rfl⟩ := findAllStringIndex_sound hre ha
    exact ⟨pre,raw,post,hs,hraw,by simp⟩
  have hsorted : ∀ a ∈ findAllStringIndex re 0 0 s, ∀ b ∈ findAllStringIndex re 0 0 s, a.1 < b.1 → a.2 ≤ b.1 := by
    intro a ha b hb hlt
    have hpair := findAllStringIndex_sorted hre 0 0 s
    obtain ⟨_,_,_,_,_,hspan⟩ := hfound b hb
    have hle : b.1 ≤ b.2 := by simp [hspan]
    obtain ⟨l,r,hlr⟩ := append_of_mem hb
    rw [hlr,pairwise_append,pairwise_cons] at hpair
    rw [hlr,mem_append,mem_cons] at ha
    rcases ha with hl | rfl | hr
    · exact hpair.2.2 a hl b mem_cons_self
    · omega
    · have hback := hpair.2.1.1 a hr
      omega
  -- by the start of the match: what starts before has been settled
  induction hn : span.1 using Nat.strongRecOn generalizing span with
  | ind n ih =>
    subst hn
    constructor
    · intro hmem
      by_contra hno
      obtain ⟨a,ha,hlt,hover⟩ := hcover span (hfound span hmem) hno
      have hle := hsorted a ((ih a.1 hlt a rfl).mpr ha) span hmem hlt
      omega
    · intro hS
      obtain ⟨pre,raw,post,rfl,hraw,rfl⟩ := hmatch span hS
      have hmem := findAllStringIndex_complete hre 0 0 hraw (Nat.zero_le _) fun a ha hlt => by
        rw [Nat.zero_add] at hlt ⊢
        exact hapart a _ ((ih a.1 hlt a rfl).mp ha) hS hlt
      rwa [Nat.zero_add] at hmem

end FindAll

/-! The groups of a run. -/

lemma Groups.append (h : Groups n s) (ht : Groups m t) : Groups (n+m) (s++t) := by
  induction h with
  | nil => rwa [Nat.zero_add]
  | digit hd _ ih =>
    rw [Nat.add_right_comm]
    exact .digit hd ih
  | separated hc hd _ ih =>
    rw [Nat.add_right_comm]
    exact .separated hc hd ih

lemma runStep_digit (hd : d.isDigit) : runStep st d = (st.1+1,false) := by
  obtain ⟨n,gap⟩ := st
  simp [runStep,hd]

lemma runStep_separator (hc : isSeparator c) : runStep (k,false) c = (k,true) := by
  simp [runStep,not_isDigit hc,hc]

lemma Groups.foldl_runStep (h : Groups n (y++x::s)) (hx : x.isDigit) (k : ℕ) :
    ∃ m < n, (y.foldl runStep (k,false)).1 = k+m := by
  generalize ht : y++x::s = t at h
  induction h generalizing y k with
  | nil => simp at ht
  | digit hd _ ih =>
    cases y with
    | nil => exact ⟨0,Nat.succ_pos _,rfl⟩
    | cons c y =>
      cases ht
      obtain ⟨m,hm,heq⟩ := ih (k+1) rfl
      exact ⟨m+1,Nat.succ_lt_succ hm,by rw [foldl_cons,runStep_digit hd,heq]; omega⟩
  | separated hc hd _ ih =>
    match y with
    | [] =>
      cases ht
      simp [not_isSeparator hx] at hc
    | [c] =>
      cases ht
      exact ⟨0,Nat.succ_pos _,by rw [foldl_cons,runStep_separator hc]; rfl⟩
    | c::e::y =>
      cases ht
      obtain ⟨m,hm,heq⟩ := ih (k+1) rfl
      exact ⟨m+1,Nat.succ_lt_succ hm,by rw [foldl_cons,foldl_cons,runStep_separator hc,runStep_digit hd,heq]; omega⟩

lemma exists_last_digits (pre : List Char) (hj : j+1 ≤ digitsBefore pre) : ∃ before d y gap, pre = before++d::(y++gap) ∧
    d.isDigit ∧ Groups j y ∧ digitsBefore before+(j+1) = digitsBefore pre ∧
    (gap = [] ∨ (pre.foldl runStep (0,false)).2 ∧ ∃ c, isSeparator c ∧ gap = [c]) := by
  unfold digitsBefore at hj ⊢
  induction pre using List.reverseRecOn generalizing j with
  | nil => simp at hj
  | append_singleton pre c ih =>
    rcases hst : pre.foldl runStep (0,false) with ⟨n,gap⟩
    rw [foldl_append,hst] at hj ⊢
    rw [hst] at ih
    simp only [foldl_cons,foldl_nil,runStep] at hj ⊢
    split_ifs at hj ⊢ with hc hsep
    · cases j with
      | zero => exact ⟨pre,c,[],[],by simp,hc,.nil,by rw [hst],.inl rfl⟩
      | succ j =>
        obtain ⟨before,d,y,gap',rfl,hd,hgro,hcount,hgap⟩ := ih (j:=j) (by simpa using hj)
        refine ⟨before,d,y++gap'++[c],[],by simp,hd,?_,by simp only at hcount ⊢; omega,.inl rfl⟩
        rw [append_assoc]
        refine hgro.append ?_
        rcases hgap with rfl | ⟨_,e,he,rfl⟩
        · exact .digit hc .nil
        · exact .separated he hc .nil
    · obtain ⟨before,d,y,gap',rfl,hd,hgro,hcount,hgap⟩ := ih hj
      simp only [Bool.and_eq_true,Bool.not_eq_true'] at hsep
      rcases hgap with rfl | ⟨htrue,_⟩
      · exact ⟨before,d,y,[c],by simp,hd,hgro,hcount,.inr ⟨rfl,c,hsep.1,rfl⟩⟩
      · exact absurd (htrue.symm.trans hsep.2) (by simp)
    · simp at hj

section Slices
variable (pre raw post : List Char)

lemma slice_append : ((pre++(raw++post)).take (pre.length+raw.length)).drop pre.length = raw := by
  rw [← append_assoc,← length_append,take_left,drop_left]

lemma drop_slice : (pre++(raw++post)).drop (pre.length+raw.length) = post := by
  rw [← append_assoc,← length_append,drop_left]

lemma boundedBy_append : boundedBy (pre++(raw++post)) pre.length (pre.length+raw.length) glued =
    (!pre.getLast?.any glued && !post.head?.any glued) := by
  rw [boundedBy,take_left,drop_slice]

end Slices

lemma bankRe_ne_nil (s raw : List Char) (h : bankRe s = some raw) : raw ≠ [] ∧ raw <+: s := by
  obtain ⟨hpre,d,t,_,rfl,_⟩ := bankRe_eq_some h
  exact ⟨by simp,hpre⟩

lemma digitsBefore_group (hd : d.isDigit) (hx : x.isDigit) (h : Groups n (y++x::s)) (pre : List Char) :
    ∃ m < n, digitsBefore (pre++d::y) = digitsBefore pre+1+m := by
  obtain ⟨m,hm,heq⟩ := h.foldl_runStep hx (digitsBefore pre+1)
  exact ⟨m,hm,by rw [digitsBefore,foldl_append,foldl_cons,runStep_digit hd]; exact heq⟩

lemma taken_apart (ha : Taken s a) (hb : Taken s b) (hlt : a.1 < b.1) : a.2 ≤ b.1 := by
  obtain ⟨pre,raw,post,rfl,rfl,hraw,hpre⟩ := ha
  obtain ⟨pre',raw',post',heq,rfl,hraw',hpre'⟩ := hb
  obtain ⟨_,d,t,n,rfl,hd,hgro,_,hmax⟩ := bankRe_eq_some hraw
  obtain ⟨_,x,t',_,rfl,hx,_⟩ := bankRe_eq_some hraw'
  dsimp only at hlt ⊢
  obtain ⟨y,rfl,hrest⟩ | ⟨_,rfl,_⟩ := append_eq_append_iff.mp heq
  · obtain ⟨_,rfl,_⟩ | ⟨z,hz,htail⟩ := append_eq_append_iff.mp hrest
    · simp only [length_append]
      omega
    · cases y with
      | nil => simp at hlt
      | cons e y =>
        obtain ⟨rfl,rfl⟩ := cons.inj hz
        cases z with
        | nil => simp
        | cons x' z =>
          obtain ⟨rfl,_⟩ := cons.inj htail
          obtain ⟨m,hm,hcount⟩ := digitsBefore_group hd hx hgro pre
          omega
  · rw [length_append] at hlt
    omega

lemma taken_cover (hb : Matches bankRe s b) (hno : ¬Taken s b) : ∃ a, Taken s a ∧ a.1 < b.1 ∧ b.1 < a.2 := by
  obtain ⟨pre,raw,post,rfl,hraw,rfl⟩ := hb
  have hrest : digitsBefore pre%19 ≠ 0 := fun hzero =>
    hno ⟨pre,raw,post,rfl,rfl,hraw,Nat.dvd_of_mod_eq_zero hzero⟩
  obtain ⟨j,hj⟩ := Nat.exists_eq_succ_of_ne_zero hrest
  obtain ⟨before,d,y,gap,rfl,hd,hgro,hcount,hgap⟩ := exists_last_digits pre (j:=j) (by omega)
  obtain ⟨_,x,t,_,rfl,hx,_⟩ := bankRe_eq_some hraw
  have hall : Groups (j+1) (y++gap++[x]) := by
    rw [append_assoc]
    refine hgro.append ?_
    rcases hgap with rfl | ⟨_,c,hc,rfl⟩
    · exact .digit hx .nil
    · exact .separated hc hx .nil
  rw [cons_append,bankRe] at hraw
  split_ifs at hraw with hmany
  obtain ⟨k,hk⟩ : ∃ k, k = 18-(j+1) := ⟨_,rfl⟩
  have htake : repeatGroup 18 (y++gap++[x]++(t++post)) = y++gap++[x]++repeatGroup k (t++post) := by
    rw [repeatGroup_append hall (by omega),hk]
  have hdigits := digits_repeatGroup (show k ≤ 18 by omega) (t++post)
  have hmatch : bankRe (d::(y++gap++[x]++(t++post))) = some (d::(y++gap++[x]++repeatGroup k (t++post))) := by
    rw [bankRe,htake,if_pos]
    refine ⟨hd,?_⟩
    rw [removeSeparators,filter_append,length_append]
    have hfirst := hall.length_removeSeparators
    unfold removeSeparators at hfirst hdigits hmany
    omega
  obtain ⟨⟨post',hpost⟩,_⟩ := repeatGroup_sound k (t++post)
  refine ⟨_,⟨before,d::(y++gap++[x]++repeatGroup k (t++post)),post',?_,rfl,?_,by omega⟩,by simp,?_⟩
  · simp [hpost]
  · rw [cons_append,append_assoc _ _ post',hpost]
    exact hmatch
  · simp only [length_append,length_cons]
    omega

lemma mem_bankRe_iff (s : List Char) (span : ℕ × ℕ) : span ∈ findAllStringIndex bankRe 0 0 s ↔ Taken s span := by
  refine mem_findAllStringIndex_iff bankRe_ne_nil ?_ (fun a b => taken_apart) (fun b => taken_cover) span
  rintro _ ⟨pre,raw,post,hs,hspan,hraw,_⟩
  exact ⟨pre,raw,post,hs,hraw,hspan⟩

theorem mem_findBankCard_iff (s : List Char) (span : ℕ × ℕ) : span ∈ findBankCard s ↔ Card s span ∧ Taken s span := by
  rw [findBankCard,mem_filter,mem_bankRe_iff,and_comm]
  refine and_congr_left fun htaken => ?_
  obtain ⟨pre,raw,post,rfl,rfl,hraw,_⟩ := htaken
  obtain ⟨_,d,t,n,rfl,hd,hgro,hmin,hmax⟩ := bankRe_eq_some hraw
  have hleng : (removeSeparators (d::t)).length = n+1 := (Groups.digit hd hgro).length_removeSeparators
  simp only [slice_append,boundedBy_append,Bool.and_eq_true,decide_eq_true_eq,Bool.not_eq_true']
  constructor
  · rintro ⟨⟨_,hbefore,hafter⟩,hluhn⟩
    exact ⟨pre,d,t,post,n,by simp,rfl,hd,hgro,hmin,hmax,hluhn,by simp [hbefore],by simp [hafter]⟩
  · rintro ⟨pre',d',t',post',n',heq,hspan,_,_,_,_,hluhn,hbefore,hafter⟩
    obtain ⟨hpre,hlen⟩ := Prod.mk.inj hspan
    rw [append_assoc] at heq
    obtain ⟨rfl,hrest⟩ := append_inj heq hpre
    obtain ⟨hsame,rfl⟩ := append_inj hrest (by omega)
    rw [← hsame] at hluhn
    exact ⟨⟨⟨by omega,by omega⟩,eq_false_of_ne_true hbefore,eq_false_of_ne_true hafter⟩,hluhn⟩

/-- A card is found exactly if one of the groups it lies in is a card. -/
theorem bank_cards_found (s : List Char) : (findBankCard s).Pairwise (fun a b => a.2 ≤ b.1) ∧
    (∀ span ∈ findBankCard s, Card s span) ∧ ∀ card, Card s card →
      ((∃ span ∈ findBankCard s, span.1 < card.2 ∧ card.1 < span.2) ↔
        ∃ span, Card s span ∧ Taken s span ∧ span.1 < card.2 ∧ card.1 < span.2) := by
  refine ⟨(findAllStringIndex_sorted bankRe_ne_nil 0 0 s).filter _,fun span hspan => ?_,fun card _ => ?_⟩
  · exact ((mem_findBankCard_iff s span).mp hspan).1
  · simp only [mem_findBankCard_iff,and_assoc]

lemma groups_digits (h : t.all Char.isDigit) : Groups t.length t := by
  induction t with
  | nil => exact .nil
  | cons d t ih =>
    obtain ⟨hd,ht⟩ := (Bool.and_eq_true _ _).mp h
    exact .digit hd (ih ht)

lemma card_of_digits (pre t post : List Char) (hd : d.isDigit) (ht : t.all Char.isDigit) (hmin : 15 ≤ t.length)
    (hmax : t.length ≤ 18) (hluhn : luhnValid (removeSeparators (d::t))) (hbefore : ¬pre.getLast?.any Char.isDigit)
    (hafter : ¬post.head?.any Char.isDigit) : Card (pre++d::t++post) (pre.length,pre.length+(d::t).length) :=
  ⟨pre,d,t,post,t.length,rfl,rfl,hd,groups_digits ht,hmin,hmax,hluhn,hbefore,hafter⟩

theorem bank_card_behind_number :
    ∃ span ∈ findBankCard "1234567890123456789 4111111111111111".toList, span.1 < 36 ∧ 20 < span.2 := by
  have hcard : Card "1234567890123456789 4111111111111111".toList (20,36) :=
    card_of_digits "1234567890123456789 ".toList "111111111111111".toList [] rfl rfl (by decide)
      (by decide) rfl (by decide) (by decide)
  refine ((bank_cards_found _).2.2 (20,36) hcard).mpr ⟨(20,36),hcard,?_,by decide,by decide⟩
  exact ⟨"1234567890123456789 ".toList,"4111111111111111".toList,[],rfl,rfl,by decide +kernel,by decide +kernel⟩

theorem bank_card_missed : Card "12 4111111111111111".toList (3,19) ∧ findBankCard "12 4111111111111111".toList = [] :=
  ⟨card_of_digits "12 ".toList "111111111111111".toList [] rfl rfl (by decide) (by decide) rfl (by decide) (by decide),
    by decide +kernel⟩

end LurusHub.BankCards
