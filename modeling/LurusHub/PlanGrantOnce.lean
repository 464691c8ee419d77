import LurusHub.PlanGrant
import Mathlib.Algebra.BigOperators.Group.List.Basic
import Mathlib.Data.Finset.Card

/-! How much one subscription period can be credited. Every credited row keeps its place in the
unique index, so a run credits at most one share for each accepted pair of tenant and key, and some
run credits them all. -/
namespace LurusHub.PlanGrant
open Transition KeyedTable List

def State.total (s : State) : ℤ := (s.credited.map PlanQuotaGrant.amount).sum

structure Plan where
  (subscriptionID expiresAt : String)
  amount : ℤ
  seats : ℤ := 1

def Plan.share (p : Plan) : ℤ := if 1 < p.seats then p.amount.tdiv p.seats else p.amount

def Plan.holders (p : Plan) : ℤ := if 1 < p.seats then p.seats else 1

def Plan.grantKey (p : Plan) (accountID : ℤ) : String :=
  let key := p.subscriptionID++":"++p.expiresAt
  if 1 < p.seats then key++":"++accountID.repr else key

def Claims.Of (c : Claims) (p : Plan) : Prop :=
  trimSpace (c.ent "subscription_id") = p.subscriptionID ∧ trimSpace (c.ent "subscription_expires_at") = p.expiresAt ∧
    parseInt (trimSpace (c.ent "newhub_pool_amount")) = some p.amount ∧ (parseInt (trimSpace (c.ent "seats"))).getD 1 = p.seats

/-- A call presents a token of the plan, if its token verifies at all. -/
def Request.Of (hub : Hub) (r : Request) (p : Plan) : Prop :=
  ∀ token claims, r.entitlementToken = some token → hub.verify token = .ok claims → claims.Of p

/-- The places in the index that the calls are accepted for. -/
def slots (hub : Hub) (calls : List Request) : Finset (String × String) :=
  (calls.filterMap fun r => (grantRow hub r false 0).toOption.map PlanQuotaGrant.slot).toFinset

def Event.Of (calls : List Request) : Event → Prop
  | .request _ r _ _ _ => r ∈ calls
  | _ => True

/-- Every account is accepted through one tenant. -/
def OneTenant (hub : Hub) (calls : List Request) : Prop :=
  ∃ home : ℤ → String, ∀ r ∈ calls, ∀ g, grantRow hub r false 0 = .ok g → g.tenantID = home g.accountID

structure Unclaimed (hub : Hub) (calls : List Request) (s : State) : Prop where
  ids : ∀ g ∈ s.grants.rows, g.id < s.nextID
  unique : ∀ g ∈ s.grants.rows, ∀ g' ∈ s.grants.rows, g.id = g'.id → g = g'
  pending : s.pending = .empty
  credited : s.credited = []
  free : ∀ g ∈ s.grants.rows, g.slot ∉ slots hub calls

/-! The row of a call. -/

lemma seatShare_of (hp : claims.Of p) (acc : ℤ) :
    seatShare claims acc p.amount (p.subscriptionID++":"++p.expiresAt) = (p.share,p.grantKey acc) := by
  rw [seatShare,Plan.share,Plan.grantKey,← hp.2.2.2]
  cases parseInt (trimSpace (claims.ent "seats")) with
  | none => rfl
  | some seats =>
    dsimp only [Option.getD_some]
    split <;> rfl

lemma grantOf_ok (hp : claims.Of p)
    (h : grantOf claims acc = .ok (amount,grantKey)) : amount = p.share ∧ grantKey = p.grantKey acc ∧ 0 < amount := by
  have hshare := seatShare_of hp acc
  obtain ⟨hsub,hexp,hamount,_⟩ := hp
  simp only [grantOf,hamount,hsub,hexp,hshare] at h
  split at h
  · cases h
  · split at h
    · cases h
    · split at h
      · cases h
      · next hpos =>
        split at h
        · cases h
        · cases h
          exact ⟨rfl,rfl,by omega⟩

lemma eligible_ok (h : eligible hub r lookupFails = .ok e) :
    lookupFails = false ∧ ∃ token, r.entitlementToken = some token ∧ hub.verify token = .ok e.claims := by
  simp only [eligible] at h
  repeat' split at h
  all_goals first | (cases h; done) | skip
  cases h
  exact ⟨by simpa using ‹¬lookupFails›,_,‹r.entitlementToken = some _›,‹hub.verify _ = .ok _›⟩

lemma grantRow_ok (h : grantRow hub r lookupFails now = .ok g) :
    lookupFails = false ∧ grantRow hub r false 0 = .ok { g with createdAt := 0 } ∧
      ∃ token claims, r.entitlementToken = some token ∧ hub.verify token = .ok claims ∧
      grantOf claims g.accountID = .ok (g.amount,g.grantKey) := by
  simp only [grantRow] at h
  split at h
  · cases h
  · next e he =>
    obtain ⟨rfl,token,htoken,hver⟩ := eligible_ok he
    split at h
    · cases h
    · next amount grantKey hgra =>
      cases h
      refine ⟨rfl,?_,token,e.claims,htoken,hver,hgra⟩
      simp only [grantRow,he,hgra]

lemma mem_slots :
    slot ∈ slots hub calls ↔ ∃ r ∈ calls, ∃ g, grantRow hub r false 0 = .ok g ∧ g.slot = slot := by
  rw [slots,mem_toFinset,mem_filterMap]
  refine exists_congr fun r => and_congr_right fun _ => ?_
  cases grantRow hub r false 0 <;> simp [Except.toOption]

lemma grantRow_slot (hr : r ∈ calls) (h : grantRow hub r lookupFails now = .ok g) : g.slot ∈ slots hub calls :=
  mem_slots.mpr ⟨r,hr,_,(grantRow_ok h).2.1,rfl⟩

lemma grantRow_of (hp : r.Of hub p) (h : grantRow hub r lookupFails now = .ok g) :
    g.amount = p.share ∧ g.grantKey = p.grantKey g.accountID ∧ 0 < g.amount := by
  obtain ⟨_,_,token,claims,htoken,hver,hgra⟩ := grantRow_ok h
  exact grantOf_ok (hp token claims htoken hver) hgra

/-! Runs. -/

structure Sound (hub : Hub) (calls : List Request) (share : ℤ) (s : State) : Prop where
  ids : ∀ g ∈ s.grants.rows, g.id < s.nextID
  unique : ∀ g ∈ s.grants.rows, ∀ g' ∈ s.grants.rows, g.id = g'.id → g = g'
  pending : ∀ p ∈ s.pending.rows, p.row ∈ s.grants.rows ∧ p.row.slot ∈ slots hub calls ∧ p.row.amount = share
  apart : ∀ p ∈ s.pending.rows, ∀ q ∈ s.pending.rows, p.row = q.row → p = q
  credited : ∀ g ∈ s.credited, g ∈ s.grants.rows ∧ g.slot ∈ slots hub calls ∧ g.amount = share
  paid : ∀ g ∈ s.credited, ∀ p ∈ s.pending.rows, p.row ≠ g
  once : (s.credited.map PlanQuotaGrant.slot).Nodup

section
variable {s : State}

lemma eq_of_slot (hg : g ∈ s.grants.rows) (hg' : g' ∈ s.grants.rows) (h : g.slot = g'.slot) : g = g' :=
  inj_on_of_nodup_map s.grants.unique hg hg' h

section
variable (h : Sound hub calls share s)
include h

lemma request_sound (hshare : ∀ r ∈ calls, ∀ f now g, grantRow hub r f now = .ok g → g.amount = share)
    (name : ℕ) (hr : r ∈ calls) (lookupFails insertFails : Bool) (now : ℤ) :
    Sound hub calls share (step hub s (.request name r lookupFails insertFails now)) := by
  simp only [step]
  split
  · exact h
  · next hname =>
    split
    · exact ⟨h.ids,h.unique,h.pending,h.apart,h.credited,h.paid,h.once⟩
    · next row hrow =>
      split
      · exact ⟨h.ids,h.unique,h.pending,h.apart,h.credited,h.paid,h.once⟩
      · split
        · exact ⟨h.ids,h.unique,h.pending,h.apart,h.credited,h.paid,h.once⟩
        · next grants hins =>
          have hid : ({ row with id := s.nextID } : PlanQuotaGrant).id = s.nextID := rfl
          have hslot : ({ row with id := s.nextID } : PlanQuotaGrant).slot ∈ slots hub calls :=
            show row.slot ∈ _ from grantRow_slot hr hrow
          have hamount : ({ row with id := s.nextID } : PlanQuotaGrant).amount = share := hshare r hr _ _ row hrow
          generalize ({ row with id := s.nextID } : PlanQuotaGrant) = new at *
          obtain ⟨hfree,hrows⟩ := insert?_eq_some.mp hins
          have hnot : new ∉ s.grants.rows := fun hin => get?_eq_none.mp hfree _ hin rfl
          have hmem : ∀ g, g ∈ grants.rows ↔ g ∈ s.grants.rows ∨ g = new := by simp [hrows]
          have hold : ∀ g ∈ s.grants.rows, g ∈ grants.rows := fun g hg => (hmem g).mpr (.inl hg)
          refine ⟨fun g hg => ?_,fun g hg g' hg' heq => ?_,fun p hp => ?_,fun p hp q hq heq => ?_,
            fun g hg => ?_,fun g hg p hp heq => ?_,h.once⟩
          · show g.id < s.nextID+1
            rcases (hmem g).mp hg with hg | rfl
            · exact (h.ids g hg).trans (Nat.lt_succ_self _)
            · rw [hid]
              exact Nat.lt_succ_self _
          · rcases (hmem g).mp hg with hin | rfl <;> rcases (hmem g').mp hg' with hin' | rfl
            · exact h.unique g hin g' hin' heq
            · exact absurd (heq.trans hid) (h.ids g hin).ne
            · exact absurd (heq.symm.trans hid) (h.ids g' hin').ne
            · rfl
          · rcases mem_put.mp hp with rfl | ⟨hp,_⟩
            · exact ⟨(hmem _).mpr (.inr rfl),hslot,hamount⟩
            · exact ⟨hold _ (h.pending p hp).1,(h.pending p hp).2⟩
          · rcases mem_put.mp hp with rfl | ⟨hp,_⟩ <;> rcases mem_put.mp hq with rfl | ⟨hq,_⟩
            · rfl
            · have hin := (h.pending q hq).1
              rw [← heq] at hin
              exact absurd hin hnot
            · have hin := (h.pending p hp).1
              rw [heq] at hin
              exact absurd hin hnot
            · exact h.apart p hp q hq heq
          · exact ⟨hold g (h.credited g hg).1,(h.credited g hg).2⟩
          · rcases mem_put.mp hp with rfl | ⟨hp,_⟩
            · have hin := (h.credited g hg).1
              rw [← heq] at hin
              exact hnot hin
            · exact h.paid g hg p hp heq

lemma credit_sound (name : ℕ) (fails : Bool) : Sound hub calls share (step hub s (.credit name fails)) := by
  simp only [step]
  split
  · next name' row hpending =>
    obtain rfl : name' = name := key_of_get? hpending
    have hp := mem_of_get? hpending
    split
    · refine ⟨h.ids,h.unique,fun q hq => ?_,fun q hq q' hq' heq => ?_,h.credited,fun g hg q hq => ?_,h.once⟩
      · rcases mem_put.mp hq with rfl | ⟨hq,_⟩
        · exact h.pending ⟨name',row,false⟩ hp
        · exact h.pending q hq
      · rcases mem_put.mp hq with rfl | ⟨hq,hne⟩ <;> rcases mem_put.mp hq' with rfl | ⟨hq',hne'⟩
        · rfl
        · exact absurd (congrArg Pending.name (h.apart ⟨name',row,false⟩ hp q' hq' heq)).symm hne'
        · exact absurd (congrArg Pending.name (h.apart q hq ⟨name',row,false⟩ hp heq)) hne
        · exact h.apart q hq q' hq' heq
      · rcases mem_put.mp hq with rfl | ⟨hq,_⟩
        · exact h.paid g hg ⟨name',row,false⟩ hp
        · exact h.paid g hg q hq
    · have hrow := h.pending _ hp
      refine ⟨h.ids,h.unique,fun q hq => h.pending q (mem_delete.mp hq).1,fun q hq q' hq' => ?_,
        forall_mem_cons.mpr ⟨hrow,h.credited⟩,fun g hg q hq heq => ?_,?_⟩
      · exact h.apart q (mem_delete.mp hq).1 q' (mem_delete.mp hq').1
      · obtain ⟨hq',hne⟩ := mem_delete.mp hq
        rcases mem_cons.mp hg with rfl | hg
        · exact hne (congrArg Pending.name (h.apart q hq' _ hp heq))
        · exact h.paid g hg q hq' heq
      · refine nodup_cons.mpr ⟨fun hin => ?_,h.once⟩
        obtain ⟨g,hg,hslot⟩ := mem_map.mp hin
        exact h.paid g hg _ hp (eq_of_slot hrow.1 (h.credited g hg).1 hslot.symm)
  · exact h

lemma delete_sound (name : ℕ) (fails : Bool) : Sound hub calls share (step hub s (.delete name fails)) := by
  simp only [step]
  split
  · next name' row hpending =>
    obtain rfl : name' = name := key_of_get? hpending
    have hp := mem_of_get? hpending
    have hrow := (h.pending _ hp).1
    -- the id names the row of the call alone, so that every other row stays
    have hsub : ∀ g ∈ (if fails then s.grants else s.grants.deleteWhere fun g => g.id = row.id).rows, g ∈ s.grants.rows := by
      intro g hg
      cases fails with
      | true => exact hg
      | false => exact (mem_filter.mp hg).1
    have hsta : ∀ g ∈ s.grants.rows, g ≠ row →
      g ∈ (if fails then s.grants else s.grants.deleteWhere fun g => g.id = row.id).rows := by
      intro g hg hne
      cases fails with
      | true => exact hg
      | false => exact mem_filter.mpr ⟨hg,by simpa using fun hid => hne (h.unique g hg row hrow hid)⟩
    refine ⟨fun g hg => h.ids g (hsub g hg),fun g hg g' hg' => h.unique g (hsub g hg) g'
      (hsub g' hg'),fun q hq => ?_,fun q hq q' hq' => ?_,
      fun g hg => ?_,fun g hg q hq => h.paid g hg q (mem_delete.mp hq).1,h.once⟩
    · obtain ⟨hq,hne⟩ := mem_delete.mp hq
      refine ⟨hsta _ (h.pending q hq).1 fun heq => ?_,(h.pending q hq).2⟩
      exact hne (congrArg Pending.name (h.apart q hq _ hp heq))
    · exact h.apart q (mem_delete.mp hq).1 q' (mem_delete.mp hq').1
    · exact ⟨hsta g (h.credited g hg).1 fun heq => h.paid g hg _ hp heq.symm,(h.credited g hg).2⟩
  · exact h

lemma step_sound (hshare : ∀ r ∈ calls, ∀ f now g, grantRow hub r f now = .ok g → g.amount = share)
    (he : e.Of calls) : Sound hub calls share (step hub s e) := by
  cases e with
  | request name r lookupFails insertFails now => exact request_sound h hshare name he lookupFails insertFails now
  | credit name fails => exact credit_sound h name fails
  | delete name fails => exact delete_sound h name fails

end

lemma Unclaimed.sound (h : Unclaimed hub calls s) : Sound hub calls share s := by
  refine ⟨h.ids,h.unique,?_,?_,?_,?_,?_⟩ <;> simp [h.pending,h.credited,empty]

lemma Sound.total_eq (h : Sound hub calls share s) : s.total = (s.credited.map PlanQuotaGrant.slot).toFinset.card*share := by
  have hamounts : s.credited.map PlanQuotaGrant.amount = replicate s.credited.length share := by
    refine eq_replicate_iff.mpr ⟨by simp,fun x hx => ?_⟩
    obtain ⟨g,hg,rfl⟩ := mem_map.mp hx
    exact (h.credited g hg).2.2
  rw [State.total,hamounts,toFinset_card_of_nodup h.once]
  simp

lemma Sound.credited_subset (h : Sound hub calls share s) : (s.credited.map PlanQuotaGrant.slot).toFinset ⊆ slots hub calls := by
  intro slot hslot
  obtain ⟨g,hg,rfl⟩ := mem_map.mp (mem_toFinset.mp hslot)
  exact (h.credited g hg).2.1

lemma Sound.total_le (h : Sound hub calls share s) (hshare : 0 ≤ share) : s.total ≤ (slots hub calls).card*share := by
  rw [h.total_eq]
  exact mul_le_mul_of_nonneg_right (Int.ofNat_le.mpr (Finset.card_le_card h.credited_subset)) hshare

end

/-! The balances. -/

/-! The run in which every call is served in turn. -/

def inTurn (calls : List Request) : List Event := calls.flatMap fun r => [.request 0 r false false 0,.credit 0 false]

structure Settled (old : State) (s : State) : Prop where
  pending : s.pending = .empty
  rows : ∀ g ∈ s.grants.rows, g ∈ old.grants.rows ∨ g ∈ s.credited

section
variable (hub : Hub)

lemma served (h : Settled old s) (r : Request) :
    let s' := run (step hub) s [.request 0 r false false 0,.credit 0 false]
    Settled old s' ∧ (∀ g ∈ s.grants.rows, g ∈ s'.grants.rows) ∧
    ∀ g, grantRow hub r false 0 = .ok g → ∃ g' ∈ s'.grants.rows, g'.slot = g.slot := by
  intro s'
  have hnone : s.pending.get? 0 = none := by rw [h.pending]; rfl
  cases hrow : grantRow hub r false 0 with
  | error e =>
    have hs' : s' = { s with answers := (0,.refused e)::s.answers } := by simp [s',step,hrow,hnone]
    rw [hs']
    exact ⟨⟨h.pending,h.rows⟩,fun _ hg => hg,by simp⟩
  | ok g =>
    cases hins : s.grants.insert? { g with id := s.nextID } with
    | none =>
      have hs' : s' = { s with answers := (0,.replayed g.amount g.grantKey)::s.answers } := by simp [s',step,hrow,hnone,hins]
      rw [hs']
      refine ⟨⟨h.pending,h.rows⟩,fun _ hg => hg,fun g' hg' => ?_⟩
      cases hg'
      obtain ⟨row,hin⟩ := insert?_eq_none.mp hins
      exact ⟨row,mem_of_get? hin,key_of_get? hin⟩
    | some grants =>
      have hpending : (s.pending.put ⟨0,{ g with id := s.nextID },false⟩).delete 0 = .empty := by
        rw [h.pending]
        rfl
      have hs' : s'.pending = .empty ∧ s'.grants = grants ∧ s'.credited = { g with id := s.nextID }::s.credited := by
        simp [s',step,hrow,hnone,hins,get?_put,hpending]
      obtain ⟨hempty,hgra,hcredited⟩ := hs'
      have hrows := (insert?_eq_some.mp hins).2
      refine ⟨⟨hempty,fun g' hg' => ?_⟩,fun g' hg' => ?_,fun g' hg' => ?_⟩
      · rw [hgra,hrows] at hg'
        rw [hcredited]
        rcases mem_append.mp hg' with hold | hnew
        · exact (h.rows g' hold).imp id (mem_cons_of_mem _)
        · exact .inr (mem_singleton.mp hnew ▸ mem_cons_self)
      · rw [hgra,hrows]
        exact mem_append_left _ hg'
      · cases hg'
        rw [hgra,hrows]
        exact ⟨{ g with id := s.nextID },mem_append_right _ (mem_singleton.mpr rfl),rfl⟩

lemma inTurn_served (h : Settled old s) (calls : List Request) :
    let s' := run (step hub) s (inTurn calls)
    Settled old s' ∧ (∀ g ∈ s.grants.rows, g ∈ s'.grants.rows) ∧
    ∀ slot ∈ slots hub calls, ∃ g ∈ s'.grants.rows, g.slot = slot := by
  induction calls generalizing s with
  | nil => exact ⟨h,fun _ hg => hg,fun _ hslot => absurd hslot (Finset.notMem_empty _)⟩
  | cons r calls ih =>
    obtain ⟨hsettled,hkeeps,htaken⟩ := served hub h r
    obtain ⟨hsettled',hkeeps',htaken'⟩ := ih hsettled
    refine ⟨hsettled',fun g hg => hkeeps' g (hkeeps g hg),fun slot hslot => ?_⟩
    obtain ⟨q,hq,g,hrow,rfl⟩ := mem_slots.mp hslot
    rcases mem_cons.mp hq with rfl | hq
    · obtain ⟨g',hin,hsame⟩ := htaken g hrow
      exact ⟨g',hkeeps' g' hin,hsame⟩
    · exact htaken' g.slot (mem_slots.mpr ⟨q,hq,g,hrow,rfl⟩)

end

/-! The period as a whole. -/

section
variable {p : Plan}

lemma inTurn_of : ∀ e ∈ inTurn calls, e.Of calls := by
  intro e he
  obtain ⟨r,hr,he⟩ := mem_flatMap.mp he
  simp only [mem_cons,not_mem_nil,or_false] at he
  rcases he with rfl | rfl
  · exact hr
  · trivial

lemma Plan.share_nonneg (hamount : 0 ≤ p.amount) : 0 ≤ p.share := by
  rw [Plan.share]
  split
  · exact Int.tdiv_nonneg hamount (by omega)
  · exact hamount

lemma Plan.holders_share_le (hamount : 0 ≤ p.amount) : p.holders*p.share ≤ p.amount := by
  rw [Plan.holders,Plan.share]
  split
  · next hsea =>
    rw [Int.tdiv_eq_ediv_of_nonneg hamount]
    exact Int.mul_ediv_self_le (by omega)
  · rw [one_mul]

lemma slots_card_le (hcalls : ∀ r ∈ calls, r.Of hub p) {accounts : Finset ℤ}
    (hheld : ∀ r ∈ calls, ∀ g, grantRow hub r false 0 = .ok g → g.accountID ∈ accounts) (hone : OneTenant hub calls) :
    (slots hub calls).card ≤ accounts.card := by
  obtain ⟨home,hhome⟩ := hone
  have hsub : slots hub calls ⊆ accounts.image fun a => (home a,p.grantKey a) := by
    intro slot hslot
    obtain ⟨r,hr,g,hrow,rfl⟩ := mem_slots.mp hslot
    refine Finset.mem_image.mpr ⟨g.accountID,hheld r hr g hrow,?_⟩
    rw [PlanQuotaGrant.slot,hhome r hr g hrow,(grantRow_of (hcalls r hr) hrow).2.1]
  exact (Finset.card_le_card hsub).trans Finset.card_image_le

/-- No more than the plan is credited exactly if the accepted places are worth no more. -/
theorem credited_within_iff (hub : Hub) (p : Plan) (hamount : 0 ≤ p.amount) (calls : List Request)
    (hcalls : ∀ r ∈ calls, r.Of hub p)
    (s : State) (hs : Unclaimed hub calls s) :
    ((∀ events, (∀ e ∈ events, e.Of calls) → Always (step hub) (fun s => s.total ≤ p.amount) s events) ↔
      (slots hub calls).card*p.share ≤ p.amount) ∧
    (∀ accounts : Finset ℤ, (accounts.card : ℤ) ≤ p.holders →
      (∀ r ∈ calls, ∀ g, grantRow hub r false 0 = .ok g → g.accountID ∈ accounts) → OneTenant hub calls →
      (slots hub calls).card*p.share ≤ p.amount) := by
  have hshare : ∀ r ∈ calls, ∀ f now g, grantRow hub r f now = .ok g → g.amount = p.share :=
    fun r hr f now g hrow => (grantRow_of (hcalls r hr) hrow).1
  have hsounds : ∀ events, (∀ e ∈ events, e.Of calls) → Always (step hub) (Sound hub calls p.share) s events := fun events heve =>
    always_of_along (G := fun _ e => e.Of calls) (fun s e hsound he => step_sound hsound hshare he) hs.sound
      (along_of_forall (fun e he _ => heve e he) s)
  refine ⟨⟨fun hruns => ?_,fun hle events heve => ?_⟩,fun accounts hcard hheld hone => ?_⟩
  · -- the run that serves every call in turn credits every place
    have hsound := (hsounds _ inTurn_of).last
    have hle := (hruns _ inTurn_of).last
    have hsettled : Settled s s := ⟨hs.pending,fun g hg => .inl hg⟩
    obtain ⟨hsettled,_,htaken⟩ := inTurn_served hub hsettled calls
    have hsub : slots hub calls ⊆ ((run (step hub) s (inTurn calls)).credited.map PlanQuotaGrant.slot).toFinset := by
      intro slot hslot
      obtain ⟨g,hg,rfl⟩ := htaken slot hslot
      rcases hsettled.rows g hg with hold | hcredited
      · exact absurd hslot (hs.free g hold)
      · exact mem_toFinset.mpr (mem_map_of_mem hcredited)
    rw [hsound.total_eq] at hle
    exact (mul_le_mul_of_nonneg_right (Int.ofNat_le.mpr (Finset.card_le_card hsub)) (Plan.share_nonneg hamount)).trans hle
  · exact (hsounds events heve).mono fun s hsound => (hsound.total_le (Plan.share_nonneg hamount)).trans hle
  · have hslots := slots_card_le hcalls hheld hone
    calc ((slots hub calls).card : ℤ)*p.share ≤ p.holders*p.share :=
          mul_le_mul_of_nonneg_right ((Int.ofNat_le.mpr hslots).trans hcard) (Plan.share_nonneg hamount)
      _ ≤ p.amount := Plan.holders_share_le hamount

end

/-! Account 7 holds the tokens of a plan worth 500. -/

def proPlan : Plan := ⟨"sub_1","2026-12-01",500,1⟩

def proEnt (field : String) : String :=
  ([("plan_code","cc_pro"),("newhub_pool_amount","500"),("subscription_id","sub_1"),
    ("subscription_expires_at","2026-12-01")].lookup field).getD ""

def proHub (tenantID : String) : Hub where
  tenants := [⟨"t1","acme",1⟩,⟨"t2","beta",1⟩,⟨"default","hub",1⟩]
  users := [⟨1,tenantID,1,some 7⟩]
  verify _ := .ok ⟨"7",.fresh,proEnt⟩

def through (slugs : List String) : List Request := slugs.map fun slug => ⟨slug,some "token"⟩

theorem credited_twice :
    (run (step (proHub "default")) {} (inTurn (through ["acme","beta"]))).total = 1000 ∧
    (run (step (proHub "default")) {} (inTurn (through ["acme","beta"]))).quota 1 = 1000 ∧
    (run (step (proHub "t1")) {} (inTurn (through ["acme","hub"]))).total = 1000 ∧
    ¬(run (step (proHub "t1")) {} (inTurn (through ["acme","hub"]))).total ≤ proPlan.amount := by
  decide +kernel

theorem credited_within_acme :
    let calls := through ["acme","acme"]
    (∀ events, (∀ e ∈ events, e.Of calls) → Always (step (proHub "default")) (fun s => s.total ≤ 500) {} events) ∧
      OneTenant (proHub "default") calls := by
  intro calls
  have hcalls : ∀ r ∈ calls, r.Of (proHub "default") proPlan := by
    intro r _ token claims _ hver
    cases hver
    refine ⟨?_,?_,?_,?_⟩ <;> decide +kernel
  have hs : Unclaimed (proHub "default") calls {} := ⟨nofun,nofun,rfl,rfl,nofun⟩
  have hone : OneTenant (proHub "default") calls := by
    have htenant : ∀ r ∈ calls, (grantRow (proHub "default") r false 0).toOption.map
      PlanQuotaGrant.tenantID = some "t1" := by decide +kernel
    refine ⟨fun _ => "t1",fun r hr g hrow => ?_⟩
    have hg := htenant r hr
    rw [hrow] at hg
    exact Option.some.inj hg
  have hwit := credited_within_iff (proHub "default") proPlan (by decide) calls hcalls {} hs
  exact ⟨hwit.1.mpr (by decide +kernel),hone⟩

end LurusHub.PlanGrant
