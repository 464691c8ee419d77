import LurusHub.TextCut
import Mathlib.Algebra.BigOperators.Group.Finset.Basic
import Mathlib.Algebra.Order.BigOperators.Group.List
import Mathlib.Data.Finset.Max

/-! The spend windows in Redis: five minutes of a user, one minute of a token or a tenant. A settlement is a member of a sorted
set, so equal members are one; the members of the second window are numbered. Times are Unix times. -/
namespace LurusHub.SpendWindows

open TextCut List SpendWindows Function

/-- The members of a sorted set with their scores. -/
abbrev ZSet := Finset (List Char × ℕ)

def zAdd (z : ZSet) (member : List Char) (score : ℕ) : ZSet := insert (member,score) (z.filter (·.1 ≠ member))

/-- `ZREMRANGEBYSCORE` up to the time `window` ago. -/
def evict (window now : ℕ) (z : ZSet) : ZSet := z.filter fun p => now < p.2+window

inductive TPMKey
  | token (tokenID : ℤ)
  | tenant (tenantID : String)
  deriving DecidableEq

structure Redis where
  costSpike : ℤ → ZSet := fun _ => ∅
  tpm : TPMKey → ZSet := fun _ => ∅
  bizTPMMemberSeq : ℕ := 0

def costSpikeWindow : ℕ := 5*60*1000
def bizTPMWindow : ℕ := 60*1000
def unixMilli (nano : ℕ) : ℕ := nano/1000000

def costSpikeMember (now tokens : ℕ) : List Char := decimal now++ ':'::decimal tokens

def parseCostSpikeMember (m : List Char) : ℕ :=
  match cut [':'] m with
  | none => 0
  | some (_,tokens) => (ofDecimal? tokens).getD 0

def recordCostSpikeWindow (r : Redis) (userID : ℤ) (tokens now : ℕ) : Redis :=
  if tokens = 0 then r
  else { r with costSpike := Function.update r.costSpike userID (zAdd (r.costSpike userID) (costSpikeMember now tokens) now) }

/-- The totals are 64-bit words. -/
def queryCostSpikeWindow (r : Redis) (userID : ℤ) (now : ℕ) : Int64 × Redis :=
  let members := evict costSpikeWindow now (r.costSpike userID)
  (.ofNat (∑ m ∈ members, parseCostSpikeMember m.1),{ r with costSpike := Function.update r.costSpike userID members })

def bizTPMMember (nano tokens seq : ℕ) : List Char := decimal nano++ ':'::(decimal tokens++ ':'::decimal seq)

def parseBizTPMMember (m : List Char) : ℕ :=
  match cut [':'] m with
  | none => 0
  | some (_,rest) => (ofDecimal? (((cut [':'] rest).map (·.1)).getD rest)).getD 0

def bizTPMRecord (r : Redis) (key : TPMKey) (tokens now : ℕ) : Redis :=
  { r with bizTPMMemberSeq := r.bizTPMMemberSeq+1
           tpm := Function.update r.tpm key (zAdd (r.tpm key) (bizTPMMember now tokens (r.bizTPMMemberSeq+1)) (unixMilli now)) }

def recordBusinessTPMUsage (r : Redis) (tokenID : ℤ) (tenantID : String) (tokens now : ℕ) : Redis :=
  if tokens = 0 then r
  else
    let r := if tokenID > 0 then bizTPMRecord r (.token tokenID) tokens now else r
    if tenantID ≠ "" then bizTPMRecord r (.tenant tenantID) tokens now else r

def bizTPMQuery (r : Redis) (key : TPMKey) (now : ℕ) : Int64 × ℕ × Redis :=
  let members := evict bizTPMWindow (unixMilli now) (r.tpm key)
  (.ofNat (∑ m ∈ members, parseBizTPMMember m.1),(members.image (·.2)).min.untopD 0,
    { r with tpm := Function.update r.tpm key members })

inductive Event
  | recordCostSpikeWindow (userID : ℤ) (tokens now : ℕ)
  | queryCostSpikeWindow (userID : ℤ) (now : ℕ)
  | recordBusinessTPMUsage (tokenID : ℤ) (tenantID : String) (tokens now : ℕ)
  | bizTPMQuery (key : TPMKey) (now : ℕ)

def step (r : Redis) : Event → Redis
  | .recordCostSpikeWindow userID tokens now => recordCostSpikeWindow r userID tokens now
  | .queryCostSpikeWindow userID now => (queryCostSpikeWindow r userID now).2
  | .recordBusinessTPMUsage tokenID tenantID tokens now => recordBusinessTPMUsage r tokenID tenantID tokens now
  | .bizTPMQuery key now => (bizTPMQuery r key now).2.2

def run (events : List Event) : Redis := events.foldl step {}

/-- The queries of the event are not after the given times. -/
def Event.Before (now nano : ℕ) : Event → Prop
  | .queryCostSpikeWindow _ t => t ≤ now
  | .bizTPMQuery _ t => unixMilli t ≤ unixMilli nano
  | _ => True

def Event.costSettled (user : ℤ) : Event → List (ℕ × ℕ)
  | .recordCostSpikeWindow userID tokens now => if userID = user ∧ tokens ≠ 0 then [(now,tokens)] else []
  | _ => []

def Event.tpmSettled (token : ℤ) : Event → List (ℕ × ℕ)
  | .recordBusinessTPMUsage tokenID _ tokens now => if tokenID = token ∧ tokens ≠ 0 then [(now,tokens)] else []
  | _ => []

def costRecent (user : ℤ) (now : ℕ) (events : List Event) : List (ℕ × ℕ) :=
  (events.flatMap (·.costSettled user)).filter fun s => now < s.1+costSpikeWindow

def tpmRecent (token : ℤ) (nano : ℕ) (events : List Event) : List (ℕ × ℕ) :=
  (events.flatMap (·.tpmSettled token)).filter fun s => unixMilli nano < unixMilli s.1+bizTPMWindow

lemma colon_not_mem_decimal : ':' ∉ decimal n := fun h => by
  have hdig := isDigit_of_mem_decimal h
  cases hdig

lemma cut_decimal : cut [':'] (decimal n++ ':'::rest) = some (decimal n,rest) :=
  cut_of_not_mem colon_not_mem_decimal [] rest

lemma parse_costSpikeMember : parseCostSpikeMember (costSpikeMember now tokens) = tokens := by
  rw [parseCostSpikeMember,costSpikeMember,cut_decimal]
  simp [ofDecimal?_decimal]

lemma parse_bizTPMMember : parseBizTPMMember (bizTPMMember nano tokens seq) = tokens := by
  rw [parseBizTPMMember,bizTPMMember]
  simp [cut_decimal,ofDecimal?_decimal]

lemma decimal_colon_inj (h : decimal m++ ':'::s = decimal n++ ':'::t) : m = n ∧ s = t := by
  have hcut := congrArg (cut [':']) h
  rw [cut_decimal,cut_decimal,Option.some_inj,Prod.mk.injEq] at hcut
  exact ⟨decimal_injective hcut.1,hcut.2⟩

lemma zAdd_eq_insert (h : ∀ p ∈ z, p.1 = member → p.2 = score) :
    zAdd z member score = insert (member,score) z := by
  ext p
  simp only [zAdd,Finset.mem_insert,Finset.mem_filter]
  refine ⟨Or.imp_right And.left,fun hp => ?_⟩
  rcases hp with hp | hz
  · exact Or.inl hp
  · by_cases hmemb : p.1 = member
    · exact Or.inl (Prod.ext hmemb (h p hz hmemb))
    · exact Or.inr ⟨hz,hmemb⟩

lemma evict_evict (h : t ≤ now) : evict window now (evict window t z) = evict window now z := by
  rw [evict,evict,Finset.filter_filter]
  exact Finset.filter_congr fun p _ => ⟨And.right,fun hp => ⟨by omega,hp⟩⟩

lemma sum_toFinset_le {α : Type*} [DecidableEq α] (f : α → ℕ) (l : List α) : ∑ a ∈ l.toFinset, f a ≤ (l.map f).sum := by
  induction l with
  | nil => simp
  | cons a l ih =>
    rw [toFinset_cons,map_cons,sum_cons]
    by_cases hmem : a ∈ l.toFinset
    · rw [Finset.insert_eq_of_mem hmem]
      omega
    · rw [Finset.sum_insert hmem]
      omega

theorem sum_toFinset_eq_iff {α : Type*} [DecidableEq α] {f : α → ℕ} {l : List α} (hpos : ∀ a ∈ l, 0 < f a) :
    ∑ a ∈ l.toFinset, f a = (l.map f).sum ↔ l.Nodup := by
  induction l with
  | nil => simp
  | cons a l ih =>
    obtain ⟨ha,hl⟩ := forall_mem_cons.mp hpos
    rw [toFinset_cons,map_cons,sum_cons,nodup_cons]
    by_cases hmem : a ∈ l
    · have hle := sum_toFinset_le f l
      rw [Finset.insert_eq_of_mem (mem_toFinset.mpr hmem)]
      exact iff_of_false (by omega) fun hboth => hboth.1 hmem
    · rw [Finset.sum_insert (fun h => hmem (mem_toFinset.mp h)),Nat.add_left_cancel_iff,ih hl]
      exact (and_iff_right hmem).symm

section Runs
variable {user token : ℤ}

lemma run_settled {P : Redis → List (ℕ × ℕ) → Prop} (hinit : P {} [])
    (hstep : ∀ r log e, e.Before now nano → P r log → P (step r e) (log++settled e))
    (hbefore : ∀ e ∈ events, e.Before now nano) : P (run events) (events.flatMap settled) := by
  induction events using reverseRecOn with
  | nil => exact hinit
  | append_singleton events e ih =>
    obtain ⟨heve,he⟩ := forall_mem_append.mp hbefore
    rw [run,foldl_append,flatMap_append,flatMap_singleton]
    exact hstep _ _ e (he e mem_cons_self) (ih heve)

def costEntry (s : ℕ × ℕ) : List Char × ℕ := (costSpikeMember s.1 s.2,s.1)

lemma costEntry_injective : Function.Injective costEntry := fun s t h => by
  obtain ⟨hnow,htok⟩ := decimal_colon_inj (Prod.ext_iff.mp h).1
  exact Prod.ext hnow (decimal_injective htok)

/-- The window of the user at the time `now` is the set of the settlements. -/
def CostWindow (user : ℤ) (now : ℕ) (r : Redis) (log : List (ℕ × ℕ)) : Prop :=
  (∀ p ∈ r.costSpike user, ∃ s, p = costEntry s) ∧
    evict costSpikeWindow now (r.costSpike user) = (log.filter fun s => now < s.1+costSpikeWindow).toFinset.image costEntry

lemma recordBusinessTPMUsage_costSpike :
    (recordBusinessTPMUsage r tokenID tenantID tokens t).costSpike = r.costSpike := by
  simp only [recordBusinessTPMUsage]
  split_ifs <;> rfl

lemma recordCostSpikeWindow_tpm (r : Redis) (userID : ℤ) (tokens t : ℕ) : (recordCostSpikeWindow r userID tokens t).tpm = r.tpm ∧
    (recordCostSpikeWindow r userID tokens t).bizTPMMemberSeq = r.bizTPMMemberSeq := by
  rw [recordCostSpikeWindow]
  split_ifs <;> exact ⟨rfl,rfl⟩

lemma CostWindow.step (e : Event) (hbefore : e.Before now nano) (h : CostWindow user now r log) :
    CostWindow user now (step r e) (log++e.costSettled user) := by
  cases e with
  | recordCostSpikeWindow userID tokens t =>
    by_cases hmine : userID = user ∧ tokens ≠ 0
    · obtain ⟨rfl,htok⟩ := hmine
      have hadd : zAdd (r.costSpike userID) (costSpikeMember t tokens) t =
        insert (costEntry (t,tokens)) (r.costSpike userID) := by
        refine zAdd_eq_insert fun p hp hmemb => ?_
        obtain ⟨s,rfl⟩ := h.1 p hp
        exact (decimal_colon_inj hmemb).1
      simp only [CostWindow,step,recordCostSpikeWindow,if_neg htok,update_self,hadd,Event.costSettled]
      refine ⟨fun p hp => ?_,?_⟩
      · rcases Finset.mem_insert.mp hp with rfl | hp
        · exact ⟨_,rfl⟩
        · exact h.1 p hp
      · rw [evict,Finset.filter_insert,← evict,h.2]
        by_cases hnew : now < t+costSpikeWindow <;> simp [costEntry,hnew,htok]
    · rw [Event.costSettled,if_neg hmine,append_nil]
      have hsame : (recordCostSpikeWindow r userID tokens t).costSpike user = r.costSpike user := by
        rw [recordCostSpikeWindow]
        split_ifs with htok
        · rfl
        · exact update_of_ne (fun huser => hmine ⟨huser.symm,htok⟩) _ _
      rwa [CostWindow,SpendWindows.step,hsame]
  | queryCostSpikeWindow userID t =>
    simp only [Event.costSettled,append_nil]
    by_cases hmine : userID = user
    · subst hmine
      simp only [CostWindow,step,queryCostSpikeWindow,update_self]
      refine ⟨fun p hp => h.1 p (Finset.mem_of_mem_filter p hp),?_⟩
      rw [evict_evict hbefore,h.2]
    · simpa only [CostWindow,SpendWindows.step,queryCostSpikeWindow,update_of_ne (Ne.symm hmine)] using h
  | recordBusinessTPMUsage tokenID tenantID tokens t =>
    simpa only [Event.costSettled,append_nil,CostWindow,SpendWindows.step,recordBusinessTPMUsage_costSpike] using h
  | bizTPMQuery key t =>
    rw [show Event.costSettled user (.bizTPMQuery key t) = [] from rfl,append_nil]
    exact h

/-- The window of the key at the time `nano` has the total of the settlements, and the members carry numbers in use. -/
def TPMWindow (key : TPMKey) (nano : ℕ) (r : Redis) (log : List (ℕ × ℕ)) : Prop :=
  (∀ p ∈ r.tpm key, ∃ t tokens seq, p.1 = bizTPMMember t tokens seq ∧ seq ≤ r.bizTPMMemberSeq) ∧
    ∑ p ∈ evict bizTPMWindow (unixMilli nano) (r.tpm key), parseBizTPMMember p.1 =
      ((log.filter fun s => unixMilli nano < unixMilli s.1+bizTPMWindow).map (·.2)).sum

lemma bizTPMMember_seq_inj (h : bizTPMMember t tokens seq = bizTPMMember t' tokens' seq') :
    seq = seq' := decimal_injective (decimal_colon_inj (decimal_colon_inj h).2).2

lemma TPMWindow.record (h : TPMWindow key nano r log) (tokens t : ℕ) :
    TPMWindow key nano (bizTPMRecord r key tokens t) (log++[(t,tokens)]) := by
  have hfresh : ∀ p ∈ r.tpm key, p.1 ≠ bizTPMMember t tokens (r.bizTPMMemberSeq+1) := by
    intro p hp hmemb
    obtain ⟨_,_,seq,hp,hseq⟩ := h.1 p hp
    have heq := bizTPMMember_seq_inj (hp.symm.trans hmemb)
    omega
  simp only [TPMWindow,bizTPMRecord,update_self,zAdd_eq_insert fun p hp hmemb => absurd hmemb (hfresh p hp)]
  refine ⟨fun p hp => ?_,?_⟩
  · rcases Finset.mem_insert.mp hp with rfl | hp
    · exact ⟨t,tokens,_,rfl,le_rfl⟩
    · obtain ⟨t',tokens',seq,hp,hseq⟩ := h.1 p hp
      exact ⟨t',tokens',seq,hp,by omega⟩
  · rw [evict,Finset.filter_insert,← evict,filter_append,map_append,sum_append,← h.2]
    by_cases hnew : unixMilli nano < unixMilli t+bizTPMWindow
    · have hnot : (bizTPMMember t tokens (r.bizTPMMemberSeq+1),unixMilli t) ∉ evict bizTPMWindow (unixMilli nano) (r.tpm key) :=
        fun hp => hfresh _ (Finset.mem_of_mem_filter _ hp) rfl
      rw [if_pos hnew,Finset.sum_insert hnot,parse_bizTPMMember,Nat.add_comm]
      simp [hnew]
    · simp [hnew]

lemma TPMWindow.record_other (h : TPMWindow key nano r log) (hne : key' ≠ key) :
    TPMWindow key nano (bizTPMRecord r key' tokens t) log := by
  simp only [TPMWindow,bizTPMRecord,update_of_ne hne.symm]
  refine ⟨fun p hp => ?_,h.2⟩
  obtain ⟨t',tokens',seq,hp,hseq⟩ := h.1 p hp
  exact ⟨t',tokens',seq,hp,by omega⟩

lemma TPMWindow.step (htoken : 0 < token) (e : Event) (hbefore : e.Before now nano) (h : TPMWindow (.token token) nano r log) :
    TPMWindow (.token token) nano (step r e) (log++e.tpmSettled token) := by
  cases e with
  | recordCostSpikeWindow userID tokens t =>
    obtain ⟨htpm,hseq⟩ := recordCostSpikeWindow_tpm r userID tokens t
    simpa only [Event.tpmSettled,append_nil,TPMWindow,SpendWindows.step,htpm,hseq] using h
  | queryCostSpikeWindow userID t =>
    rw [show Event.tpmSettled token (.queryCostSpikeWindow userID t) = [] from rfl,append_nil]
    exact h
  | recordBusinessTPMUsage tok tenantID tokens t =>
    rw [SpendWindows.step,recordBusinessTPMUsage,Event.tpmSettled]
    by_cases htok : tokens = 0
    · simpa [htok] using h
    · simp only [htok,if_false,ne_eq,not_false_eq_true,and_true]
      have hreco : TPMWindow (.token token) nano (if tok > 0 then bizTPMRecord r (.token tok) tokens t else r)
          (log++if tok = token then [(t,tokens)] else []) := by
        by_cases hmine : tok = token
        · rw [if_pos hmine,if_pos (by omega),hmine]
          exact h.record tokens t
        · rw [if_neg hmine,append_nil]
          split_ifs
          · exact h.record_other (fun hkey => hmine (TPMKey.token.inj hkey))
          · exact h
      split_ifs at hreco ⊢ <;> first | exact hreco | exact hreco.record_other (by simp)
  | bizTPMQuery key t =>
    simp only [Event.tpmSettled,append_nil]
    by_cases hmine : key = .token token
    · subst hmine
      simp only [TPMWindow,SpendWindows.step,bizTPMQuery,update_self,evict_evict hbefore]
      exact ⟨fun p hp => h.1 p (Finset.mem_of_mem_filter p hp),h.2⟩
    · simpa only [TPMWindow,SpendWindows.step,bizTPMQuery,update_of_ne (Ne.symm hmine)] using h

end Runs

lemma costSettled_pos (e : Event) : ∀ s ∈ e.costSettled user, 0 < s.2 := by
  cases e with
  | recordCostSpikeWindow userID tokens now =>
    intro s hs
    simp only [Event.costSettled] at hs
    split_ifs at hs with hmine
    · rw [mem_singleton.mp hs]
      exact Nat.pos_of_ne_zero hmine.2
    · cases hs
  | _ => simp [Event.costSettled]

lemma toInt_ofNat_eq_iff {m n : ℕ} (h : m ≤ n) : (Int64.ofNat m).toInt = n ↔ m = n ∧ n < 2^63 := by
  constructor
  · intro heq
    have hlt := heq ▸ (Int64.ofNat m).toInt_lt
    rw [Int64.toInt_ofNat_of_lt (by omega)] at heq
    omega
  · rintro ⟨rfl,hlt⟩
    exact Int64.toInt_ofNat_of_lt hlt

/-- Equal settlements of one millisecond are one in the user's window, not in the token's. -/
theorem windows_exact_iff (events : List Event) (user token : ℤ) (now nano : ℕ) (htoken : 0 < token)
    (hbefore : ∀ e ∈ events, e.Before now nano) :
    ((queryCostSpikeWindow (run events) user now).1.toInt = ((costRecent user now events).map (·.2)).sum ↔
        (costRecent user now events).Nodup ∧ ((costRecent user now events).map (·.2)).sum < 2^63) ∧
      ((bizTPMQuery (run events) (.token token) nano).1.toInt = ((tpmRecent token nano events).map (·.2)).sum ↔
        ((tpmRecent token nano events).map (·.2)).sum < 2^63) := by
  constructor
  · have hwin : CostWindow user now (run events) (events.flatMap (·.costSettled user)) :=
      run_settled ⟨by simp,rfl⟩ (fun _ _ e he h => h.step e he) hbefore
    have htotal : (queryCostSpikeWindow (run events) user now).1 = .ofNat (∑ s ∈ (costRecent user now events).toFinset, s.2) := by
      simp only [queryCostSpikeWindow,hwin.2,Finset.sum_image costEntry_injective.injOn]
      exact congrArg _ (Finset.sum_congr rfl fun (s : ℕ × ℕ) _ => parse_costSpikeMember)
    rw [htotal,toInt_ofNat_eq_iff (sum_toFinset_le _ _)]
    refine and_congr_left' (sum_toFinset_eq_iff fun s hs => ?_)
    obtain ⟨e,_,hs⟩ := mem_flatMap.mp (mem_filter.mp hs).1
    exact costSettled_pos e s hs
  · have hwin : TPMWindow (.token token) nano (run events) (events.flatMap (·.tpmSettled token)) :=
      run_settled ⟨by simp,rfl⟩ (fun _ _ e he h => h.step htoken e he) hbefore
    exact (toInt_ofNat_eq_iff hwin.2.le).trans (and_iff_right hwin.2)

theorem windows_exact_twice :
    (queryCostSpikeWindow (run [.recordCostSpikeWindow 1 7 5,.recordCostSpikeWindow 1 8 5]) 1 6).1.toInt = 15 :=
  (windows_exact_iff [.recordCostSpikeWindow 1 7 5,.recordCostSpikeWindow 1 8 5] 1 1 6 6 (by decide)
    (by simp [Event.Before])).1.mpr (by decide)

theorem equal_settlements_collapse : (queryCostSpikeWindow
    (run [.recordCostSpikeWindow 1 7 5,.recordCostSpikeWindow 1 7 5]) 1 6).1 = 7 ∧
    ((costRecent 1 6 [.recordCostSpikeWindow 1 7 5,.recordCostSpikeWindow 1 7 5]).map (·.2)).sum = 14 := by
  decide +kernel

end LurusHub.SpendWindows
