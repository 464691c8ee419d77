import LurusHub.ConcurrencyLimit
import Mathlib.Data.List.Perm.Basic
import Mathlib.Tactic.Linarith

/-! The slots of a key are the leases of the requests that were admitted to it and have not released
it, as long as no request outlives its lease. The local backend never admits more than the limit;
Redis does exactly if an insert comes after others have filled the set since its count. -/
namespace LurusHub.ConcurrencyLimit
open Transition KeyedTable Function List Request

def System.holders (s : System) (key : String) : List Request := s.requests.rows.filter fun r => key ∈ r.releases.map Prod.fst

def Within (cfg : Config) (s : System) : Prop :=
  ∀ c, ∀ d ∈ dimensions cfg c, ((s.holders d.key).length : ℤ) ≤ d.limit

/-- Every admitted request finishes within the TTL of its slot; for Redis in the milliseconds of the scores. -/
def Timely (cfg : Config) (s : System) : Prop :=
  ∀ r ∈ s.requests.rows, ∀ h ∈ r.releases,
    if cfg.redisEnabled then unixMilli s.clock < unixMilli (h.2+cfg.concurrencyLeaseTTL)
      else s.clock ≤ h.2+cfg.concurrencyLeaseTTL
  deriving Decidable

def Event.isBackendError : Event → Bool
  | .backendError _ _ => true
  | _ => false

/-- A step without a backend error, from a state in which no request has outlived its lease. -/
def Healthy (cfg : Config) (s : System) (e : Event) : Prop := Timely cfg s ∧ e.isBackendError = false
  deriving Decidable

/-- At the insert the set still has room, whatever was inserted since the count. -/
def RoomLeft (s : System) : Event → Prop
  | .next leaseID =>
    match s.requests.get? leaseID with
    | some ⟨_,_,.insert _ d _,_⟩ => ((s.slots d.key).size : ℤ) < d.limit
    | _ => True
  | _ => True

instance (s : System) (e : Event) : Decidable (RoomLeft s e) := by
  delta RoomLeft
  split
  · split <;> infer_instance
  · infer_instance

/-! The dimensions of a request. -/

lemma tokenKey_ne_tenantKey : concurrencyTokenKeyPrefix++a ≠ concurrencyTenantKeyPrefix++b := by
  intro h
  have := congrArg String.toList h
  simp [concurrencyTokenKeyPrefix,concurrencyTenantKeyPrefix] at this

lemma mem_dimensions (h : d ∈ dimensions cfg c) :
    0 < d.limit ∧ ((∃ id, d = ⟨"token",concurrencyTokenKeyPrefix++id,cfg.concurrencyLimitPerToken⟩) ∨
      ∃ id, d = ⟨"tenant",concurrencyTenantKeyPrefix++id,cfg.concurrencyLimitPerTenant⟩) := by
  rcases mem_append.mp h with h | h
  · obtain ⟨hpos,h⟩ := mem_ite_nil_right.mp h
    obtain rfl := mem_singleton.mp h
    exact ⟨hpos.1,.inl ⟨_,rfl⟩⟩
  · obtain ⟨hpos,h⟩ := mem_ite_nil_right.mp h
    obtain rfl := mem_singleton.mp h
    exact ⟨hpos.1,.inr ⟨_,rfl⟩⟩

lemma limit_of_key (hd : d ∈ dimensions cfg c) (hd' : d' ∈ dimensions cfg c')
    (hkey : d.key = d'.key) : d.limit = d'.limit := by
  rcases (mem_dimensions hd).2 with ⟨a,rfl⟩ | ⟨a,rfl⟩ <;> rcases (mem_dimensions hd').2 with ⟨b,rfl⟩ | ⟨b,rfl⟩
  · rfl
  · exact absurd hkey tokenKey_ne_tenantKey
  · exact absurd hkey.symm tokenKey_ne_tenantKey
  · rfl

lemma dimensions_nodup : ((dimensions cfg c).map Dimension.key).Nodup := by
  rw [dimensions]
  split <;> split <;> simp [tokenKey_ne_tenantKey]

lemma concurrencyLeaseTTL_milli (cfg : Config) : ∃ k : ℤ, 0 < k ∧ cfg.concurrencyLeaseTTL = k*1000000 := by
  rw [Config.concurrencyLeaseTTL,concurrencyDefaultLeaseTTLSeconds]
  split
  · exact ⟨1800000,by norm_num,by norm_num⟩
  · next h => exact ⟨cfg.leaseTTL*1000,by omega,by omega⟩

/-! What holds between the slots and the requests. -/

def Phase.pending : Phase → List Dimension
  | .acquire rest => rest
  | .sweep _ d rest => d::rest
  | .count _ d rest => d::rest
  | .insert _ d rest => d::rest
  | _ => []

def Phase.now? : Phase → Option ℤ
  | .sweep now _ _ => some now
  | .count now _ _ => some now
  | .insert now _ _ => some now
  | _ => none

def Phase.midway : Phase → Bool
  | .count _ _ _ => true
  | .insert _ _ _ => true
  | _ => false

structure Request.Regular (cfg : Config) (clock : ℤ) (r : Request) : Prop where
  keys : (r.releases.map Prod.fst++r.phase.pending.map Dimension.key).Nodup
  dims : ∀ d ∈ r.phase.pending, d ∈ dimensions cfg r.caller
  begun : ∀ now, r.phase.now? = some now → now ≤ clock
  held : ∀ h ∈ r.releases, h.2 ≤ clock
  ended : ∀ answer, r.phase = .done answer → r.releases = []
  atomic : cfg.redisEnabled = false → r.phase.midway = false

def stamp (cfg : Config) (now : ℤ) : ℤ := if cfg.redisEnabled then unixMilli now else now

def Request.lease (cfg : Config) (key : String) (r : Request) : Option Lease :=
  (r.releases.lookup key).map fun now => ⟨r.leaseID,stamp cfg now⟩

structure Exact (cfg : Config) (s : System) : Prop where
  slots : ∀ key id, (s.slots key).get? id = (s.requests.get? id).bind (Request.lease cfg key)
  regular : ∀ id r, s.requests.get? id = some r → r.Regular cfg s.clock
  expiry : ∀ key t, s.expireAt key = some t → ∀ id r, s.requests.get? id = some r → ∀ now, (key,now) ∈ r.releases →
    now+2*cfg.concurrencyLeaseTTL ≤ t
  volatile : cfg.redisEnabled = false → ∀ key, s.expireAt key = none

section
variable {r r' : Request}

lemma lookup_cons_eq {l : List (String × ℤ)} : ((b,v)::l).lookup a = if a = b then some v else l.lookup a := by
  by_cases h : a = b
  · simp [h]
  · rw [lookup_cons,beq_eq_false_iff_ne.mpr h,if_neg h]

lemma mem_of_lookup {l : List (String × ℤ)} (h : l.lookup key = some v) : (key,v) ∈ l := by
  obtain ⟨l₁,l₂,rfl,_⟩ := lookup_eq_some_iff.mp h
  simp

lemma lease_isSome : (r.lease cfg key).isSome ↔ key ∈ r.releases.map Prod.fst := by
  rw [lease,Option.isSome_map,lookup_isSome_iff,mem_map]
  exact exists_congr fun h => and_congr_right fun _ => beq_iff_eq.trans eq_comm

lemma Exact.size_slots (h : Exact cfg s) : (s.slots key).size = (s.holders key).length := by
  have hperm : ((s.slots key).rows.map Lease.leaseID).Perm ((s.holders key).map leaseID) := by
    refine (perm_ext_iff_of_nodup (s.slots key).unique (s.requests.unique.sublist (filter_sublist.map _))).mpr fun id => ?_
    rw [mem_map_rows,h.slots,mem_map]
    constructor
    · intro hsome
      obtain ⟨l,hl⟩ := Option.isSome_iff_exists.mp hsome
      obtain ⟨r,hr,hlease⟩ := Option.bind_eq_some_iff.mp hl
      refine ⟨r,mem_filter.mpr ⟨mem_of_get? hr,?_⟩,key_of_get? hr⟩
      simpa using lease_isSome.mp (Option.isSome_iff_exists.mpr ⟨l,hlease⟩)
    · rintro ⟨r,hr,rfl⟩
      obtain ⟨hmem,hkey⟩ := mem_filter.mp hr
      rw [get?_of_mem hmem]
      exact lease_isSome.mpr (by simpa using hkey)
  simpa [size] using hperm.length_eq

lemma Exact.holder (h : Exact cfg s) (hl : l ∈ (s.slots key).rows) :
    ∃ r, s.requests.get? l.leaseID = some r ∧ r.lease cfg key = some l := by
  have hget := h.slots key l.leaseID
  rw [get?_of_mem hl] at hget
  exact Option.bind_eq_some_iff.mp hget.symm

theorem Exact.live (h : Exact cfg s) (ht : Timely cfg s) (hnow : now ≤ s.clock) (hl : l ∈ (s.slots key).rows) :
    if cfg.redisEnabled then unixMilli (now-cfg.concurrencyLeaseTTL) < l.score else now-l.score ≤ cfg.concurrencyLeaseTTL := by
  obtain ⟨r,hr,hlease⟩ := h.holder hl
  obtain ⟨admitted,hlookup,rfl⟩ := Option.map_eq_some_iff.mp hlease
  have htimely := ht r (mem_of_get? hr) _ (mem_of_lookup hlookup)
  obtain ⟨k,_,hk⟩ := concurrencyLeaseTTL_milli cfg
  simp only [stamp,unixMilli] at htimely ⊢
  split at htimely
  · simp only [*,if_true]
    omega
  · simp only [*]
    simp
    omega

lemma Request.Regular.enter (h : r.Regular cfg clock) (hpending : p.pending.Sublist r.phase.pending)
    (hnow : ∀ now, p.now? = some now → now ≤ clock) (hover : ∀ answer, p = .done answer → r.releases = [])
    (hato : cfg.redisEnabled = false → p.midway = false) : ({ r with phase := p } : Request).Regular cfg clock :=
  ⟨h.keys.sublist ((List.Sublist.refl _).append (hpending.map _)),fun d hd => h.dims d
    (hpending.subset hd),hnow,h.held,hover,hato⟩

variable {id : ℕ} {room : Prop}

lemma Exact.move (h : Exact cfg s) (hr : s.requests.get? id = some r) (hid : r'.leaseID = id)
    (hrel : r'.releases = r.releases) (hregular : r'.Regular cfg s.clock) : Exact cfg (s.setRequest r') := by
  obtain rfl := key_of_get? hr
  have hlease : ∀ key, r'.lease cfg key = r.lease cfg key := fun key => by simp [lease,hid,hrel]
  refine ⟨fun key id => ?_,forall_get?_put hregular h.regular,fun key t ht => ?_,h.volatile⟩
  · rw [System.setRequest,h.slots,get?_put,hid]
    split
    · next hself => rw [hself,hr,Option.bind_some,Option.bind_some,hlease]
    · rfl
  · refine forall_get?_put (fun now hmem => ?_) (h.expiry key t ht)
    exact h.expiry key t ht r.leaseID r hr now (hrel ▸ hmem)

lemma Request.regular_arrived :
    (⟨id,c,.acquire (dimensions cfg c),[]⟩ : Request).Regular cfg clock := by
  refine ⟨by simpa [Phase.pending] using dimensions_nodup,fun d hd => hd,?_,?_,?_,?_⟩
  · exact nofun
  · exact nofun
  · exact nofun
  · exact fun _ => rfl

lemma Exact.arrive (h : Exact cfg s) (hnone : s.requests.get? id = none) (c : Caller) :
    Exact cfg (s.setRequest ⟨id,c,.acquire (dimensions cfg c),[]⟩) := by
  refine ⟨fun key i => ?_,forall_get?_put regular_arrived h.regular,fun key t ht => ?_,h.volatile⟩
  · rw [System.setRequest,h.slots,get?_put]
    split
    · next hself => rw [hself,hnone]; rfl
    · rfl
  · exact forall_get?_put (by simp) (h.expiry key t ht)

lemma Request.Regular.admitted (h : r.Regular cfg clock) (hpending : r.phase.pending = d::rest)
    (hnow : now ≤ clock) : (r.admitted d.key now rest).Regular cfg clock := by
  have hkeys := h.keys
  rw [hpending] at hkeys
  refine ⟨?_,fun e he => h.dims e (by rw [hpending]; exact mem_cons_of_mem _ he),?_,?_,?_,?_⟩
  · exact (perm_middle.nodup_iff).mp hkeys
  · exact nofun
  · exact forall_mem_cons.mpr ⟨hnow,h.held⟩
  · exact nofun
  · exact fun _ => rfl

section
variable (h : Exact cfg s)
include h

lemma Exact.take (hr : s.requests.get? id = some r) (hpending : r.phase.pending = d::rest) (hnow : now ≤ s.clock)
    (hother : ∀ key, key ≠ d.key → expireAt key = s.expireAt key)
    (hself : ∀ t, expireAt d.key = some t → s.clock+2*cfg.concurrencyLeaseTTL ≤ t)
    (hvol : cfg.redisEnabled = false → expireAt d.key = none) :
    Exact cfg ⟨Function.update s.slots d.key ((s.slots d.key).put ⟨r.leaseID,stamp cfg now⟩),expireAt,
      s.requests.put (r.admitted d.key now rest),s.clock⟩ := by
  obtain rfl := key_of_get? hr
  have hregular := forall_get?_put ((h.regular r.leaseID r hr).admitted hpending hnow) h.regular
  refine ⟨fun key id => ?_,hregular,fun key t ht => ?_,fun hredis key => ?_⟩
  · dsimp only
    rw [get?_put]
    by_cases hkey : key = d.key
    · subst hkey
      rw [update_self,get?_put,h.slots]
      split
      · next hid => simp [hid,admitted,lease]
      · next hid => simp [show id ≠ (r.admitted d.key now rest).leaseID from hid]
    · rw [update_of_ne hkey,h.slots]
      split
      · next hid =>
        rw [hid,show (r.admitted d.key now rest).leaseID = r.leaseID from rfl,hr]
        simp [lease,admitted,lookup_cons_eq,hkey]
      · rfl
  · by_cases hkey : key = d.key
    · intro id q hq admitted hmem
      subst hkey
      have hlast := hself t ht
      have hheld : admitted ≤ s.clock := (hregular id q hq).held _ hmem
      omega
    · have ht : s.expireAt key = some t := (hother key hkey).symm.trans ht
      refine forall_get?_put (fun admitted hmem => ?_) (h.expiry key t ht)
      rcases mem_cons.mp hmem with heq | hmem
      · exact absurd (congrArg Prod.fst heq) hkey
      · exact h.expiry key t ht r.leaseID r hr admitted hmem
  · by_cases hkey : key = d.key
    · rw [hkey]
      exact hvol hredis
    · exact (hother key hkey).trans (h.volatile hredis key)

lemma Exact.release (hr : s.requests.get? id = some r) (hrel : r.releases = (key,now)::held) :
    Exact cfg ((s.setSlots key ((s.slots key).delete r.leaseID)).setRequest { r with releases := held }) := by
  obtain rfl := key_of_get? hr
  have hreg := h.regular r.leaseID r hr
  have hkeys := hreg.keys
  rw [hrel,map_cons,cons_append,nodup_cons] at hkeys
  have hgone : held.lookup key = none := by
    refine lookup_eq_none_iff.mpr fun p hp => ?_
    have hne : key ≠ p.1 := fun heq => hkeys.1 (mem_append_left _ (mem_map.mpr ⟨p,hp,heq.symm⟩))
    simpa using hne
  have hmem : ∀ p ∈ held, p ∈ r.releases := fun p hp => hrel ▸ mem_cons_of_mem _ hp
  have hregular : ({ r with releases := held } : Request).Regular cfg s.clock :=
    ⟨hkeys.2,hreg.dims,hreg.begun,fun p hp => hreg.held p (hmem p hp),
      fun a ha => absurd (hrel.symm.trans (hreg.ended a ha)) (cons_ne_nil _ _),hreg.atomic⟩
  refine ⟨fun k id => ?_,forall_get?_put hregular h.regular,fun k t ht => ?_,h.volatile⟩
  · dsimp only [System.setRequest,System.setSlots]
    rw [get?_put]
    by_cases hkey : k = key
    · subst hkey
      rw [update_self,get?_delete,h.slots]
      split
      · simp [lease,hgone]
      · rfl
    · rw [update_of_ne hkey,h.slots]
      split
      · next hid =>
        rw [hid,hr]
        simp [lease,hrel,lookup_cons_eq,hkey]
      · rfl
  · refine forall_get?_put (fun admitted hk => ?_) (h.expiry k t ht)
    exact h.expiry k t ht r.leaseID r hr admitted (hmem _ hk)

lemma Exact.tick (n : ℕ) : Exact cfg { s with clock := s.clock+n } := by
  refine ⟨h.slots,fun id r hr => ?_,h.expiry,h.volatile⟩
  have hreg := h.regular id r hr
  refine ⟨hreg.keys,hreg.dims,fun now hnow => ?_,fun p hp => ?_,hreg.ended,hreg.atomic⟩
  · have := hreg.begun now hnow
    dsimp only
    omega
  · have := hreg.held p hp
    dsimp only
    omega

theorem Exact.expire (ht : Timely cfg s) (hexp : s.expireAt key = some t) (hcome : t ≤ s.clock) :
    Exact cfg { s.setSlots key .empty with expireAt := Function.update s.expireAt key none } := by
  have hempty : s.slots key = .empty := by
    ext1
    refine eq_nil_iff_forall_not_mem.mpr fun l hl => ?_
    obtain ⟨r,hr,hlease⟩ := h.holder hl
    obtain ⟨admitted,hlookup,_⟩ := Option.map_eq_some_iff.mp hlease
    have hbound := h.expiry key t hexp _ r hr admitted (mem_of_lookup hlookup)
    have htimely := ht r (mem_of_get? hr) _ (mem_of_lookup hlookup)
    obtain ⟨k,hpos,hk⟩ := concurrencyLeaseTTL_milli cfg
    simp only [unixMilli] at htimely hbound
    split at htimely <;> omega
  have hslots : update s.slots key .empty = s.slots := update_eq_self_iff.mpr hempty.symm
  refine ⟨fun k id => ?_,h.regular,fun k t' hk => ?_,fun hredis k => ?_⟩
  · rw [System.setSlots,hslots]
    exact h.slots k id
  · have hk : update s.expireAt key none k = some t' := hk
    have hne : k ≠ key := by
      rintro rfl
      simp at hk
    rw [update_of_ne hne] at hk
    exact h.expiry k t' hk
  · show update s.expireAt key none k = none
    rw [h.volatile hredis key] at hexp
    cases hexp

lemma Exact.lease_fresh (hr : s.requests.get? id = some r) (hpending : r.phase.pending = d::rest) :
    (s.slots d.key).get? id = none := by
  have hkeys := (h.regular id r hr).keys
  rw [hpending] at hkeys
  have hnew : d.key ∉ r.releases.map Prod.fst := fun hmem => (nodup_append.mp hkeys).2.2 _ hmem _ mem_cons_self rfl
  rw [h.slots,hr,← Option.not_isSome_iff_eq_none]
  exact fun hsome => hnew (lease_isSome.mp hsome)

end

inductive Change (cfg : Config) (s s' : System) (room : Prop) : Prop
  | shrink (hroom : room) (hsize : ∀ key, (s'.slots key).size ≤ (s.slots key).size)
  | grow (c : Caller) (d : Dimension) (hd : d ∈ dimensions cfg c) (hother : ∀ key, key ≠ d.key → s'.slots key = s.slots key)
    (hself : (s'.slots d.key).size = (s.slots d.key).size+1) (hroom : room ↔ ((s.slots d.key).size : ℤ) < d.limit)
    (hlocal : cfg.redisEnabled = false → room)

lemma Change.same (hroom : room) (h : s'.slots = s.slots) : Change cfg s s' room :=
  .shrink hroom fun key => by rw [h]

lemma Change.take (h : Exact cfg s) (hr : s.requests.get? id = some r) (hpending : r.phase.pending = d::rest)
    (hslots : s'.slots = Function.update s.slots d.key ((s.slots d.key).put ⟨id,score⟩))
    (hroom : room ↔ ((s.slots d.key).size : ℤ) < d.limit) (hlocal : cfg.redisEnabled = false → room) : Change cfg s s' room := by
  have hd : d ∈ dimensions cfg r.caller := (h.regular id r hr).dims d (by rw [hpending]; exact mem_cons_self)
  refine .grow r.caller d hd (fun key hkey => ?_) ?_ hroom hlocal
  · rw [hslots,update_of_ne hkey]
  · rw [hslots,update_self,size_put_of_none (h.lease_fresh hr hpending)]

def Steps (cfg : Config) (s s' : System) (room : Prop) : Prop := Exact cfg s' ∧ Change cfg s s' room

section
variable (h : Exact cfg s) (hr : s.requests.get? id = some r) (hs' : s' = s.setRequest { r with phase := p }) (hroom : room)
include h hr hs' hroom

lemma enter_effect (hpending : p.pending.Sublist r.phase.pending) (hnow : ∀ now, p.now? = some now → now ≤ s.clock)
    (hover : ∀ answer, p = .done answer → r.releases = []) (hato : cfg.redisEnabled = false → p.midway = false) :
    Steps cfg s s' room := by
  subst hs'
  have hid : r.leaseID = id := key_of_get? hr
  exact ⟨h.move hr hid rfl ((h.regular id r hr).enter hpending hnow hover hato),.same hroom rfl⟩

lemma untimed_effect (hpending : p.pending.Sublist r.phase.pending) (hnow : p.now? = none) (hover : ∀ answer, p ≠ .done answer)
    (hmid : p.midway = false) : Steps cfg s s' room :=
  enter_effect h hr hs' hroom hpending (fun now heq => by rw [hnow] at heq; cases heq)
    (fun answer heq => absurd heq (hover answer))
    fun _ => hmid

end

lemma zRemRangeByScore_eq_self (h : Exact cfg s) (ht : Timely cfg s) (hredis : cfg.redisEnabled) (hnow : now ≤ s.clock)
    (key : String) : zRemRangeByScore (s.slots key) (unixMilli (now-cfg.concurrencyLeaseTTL)) = s.slots key := by
  refine deleteWhere_eq_self fun l hl => ?_
  have hlive := h.live ht hnow hl
  rw [if_pos hredis] at hlive
  simpa using hlive

lemma deleteWhere_expired_eq_self (h : Exact cfg s) (ht : Timely cfg s) (hlocal : cfg.redisEnabled = false) (hnow : now ≤ s.clock)
    (key : String) : (s.slots key).deleteWhere (fun l => cfg.concurrencyLeaseTTL < now-l.score) = s.slots key := by
  refine deleteWhere_eq_self fun l hl => ?_
  have hlive := h.live ht hnow hl
  rw [hlocal] at hlive
  simpa using hlive

section
variable {caller : Caller} {releases : List (String × ℤ)}

lemma sweep_effect (h : Exact cfg s) (ht : Timely cfg s)
    (hr : s.requests.get? id = some ⟨id,caller,.sweep now d rest,releases⟩) (hroom : room) :
    Steps cfg s (next cfg s ⟨id,caller,.sweep now d rest,releases⟩) room := by
  have hreg := h.regular id _ hr
  have hnow : now ≤ s.clock := hreg.begun now rfl
  cases hredis : cfg.redisEnabled with
  | true =>
    have hkept := zRemRangeByScore_eq_self h ht hredis hnow d.key
    refine enter_effect h hr (p:=.count now d rest) ?_ hroom (.refl _) hreg.begun (nofun) fun hlocal => by simp [hredis] at hlocal
    simp [next,hredis,hkept,System.setSlots]
  | false =>
    have hkept := deleteWhere_expired_eq_self h ht hredis hnow d.key
    by_cases hfull : d.limit ≤ (s.slots d.key).size
    · refine untimed_effect h hr (p:=.release (some (ccReject d))) ?_ hroom (nil_sublist _) rfl (nofun) rfl
      simp [next,hredis,ccLocalAcquire,hkept,hfull,System.setSlots,rejected]
    · have hnext : next cfg s ⟨id,caller,.sweep now d rest,releases⟩ =
          ⟨update s.slots d.key ((s.slots d.key).put ⟨id,stamp cfg now⟩),s.expireAt,
            s.requests.put (admitted ⟨id,caller,.sweep now d rest,releases⟩ d.key now rest),s.clock⟩ := by
        simp [next,hredis,ccLocalAcquire,hkept,hfull,System.setSlots,System.setRequest,stamp]
      rw [hnext]
      refine ⟨h.take hr rfl hnow (fun _ _ => rfl) ?_ fun _ => h.volatile hredis d.key,.take h hr rfl rfl ?_ fun _ => hroom⟩
      · exact fun t htime => absurd ((h.volatile hredis d.key).symm.trans htime) (by simp)
      · exact iff_of_true hroom (not_le.mp hfull)

lemma count_effect (h : Exact cfg s) (hr : s.requests.get? id = some ⟨id,caller,.count now d rest,releases⟩)
    (hroom : room) : Steps cfg s (next cfg s ⟨id,caller,.count now d rest,releases⟩) room := by
  have hreg := h.regular id _ hr
  by_cases hfull : d.limit ≤ (s.slots d.key).size
  · refine untimed_effect h hr (p:=.release (some (ccReject d))) ?_ hroom (nil_sublist _) rfl (nofun) rfl
    simp [next,hfull,rejected]
  · refine enter_effect h hr (p:=.insert now d rest) ?_ hroom (.refl _) hreg.begun (nofun) hreg.atomic
    simp [next,hfull]

theorem insert_effect (h : Exact cfg s) (hr : s.requests.get? id = some ⟨id,caller,.insert now d rest,releases⟩) :
    Steps cfg s (next cfg s ⟨id,caller,.insert now d rest,releases⟩) (RoomLeft s (.next id)) := by
  have hreg := h.regular id _ hr
  have hredis : cfg.redisEnabled := by
    by_contra hlocal
    cases hreg.atomic (by simpa using hlocal)
  have hnext : next cfg s ⟨id,caller,.insert now d rest,releases⟩ =
      ⟨update s.slots d.key ((s.slots d.key).put ⟨id,stamp cfg now⟩),
        update s.expireAt d.key (some (s.clock+2*cfg.concurrencyLeaseTTL)),
        s.requests.put (admitted ⟨id,caller,.insert now d rest,releases⟩ d.key now rest),s.clock⟩ := by
    simp [next,System.zAddExpire,System.setRequest,stamp,hredis]
  rw [hnext]
  refine ⟨h.take hr rfl (hreg.begun now rfl) (fun key hkey => update_of_ne hkey _ _) ?_ ?_,.take h hr rfl rfl ?_ ?_⟩
  · intro t htime
    rw [update_self] at htime
    exact (Option.some.inj htime).le
  · exact fun hlocal => by simp [hredis] at hlocal
  · simp [RoomLeft,hr]
  · exact fun hlocal => by simp [hredis] at hlocal

lemma release_effect (h : Exact cfg s) (hr : s.requests.get? id = some ⟨id,caller,.release answer,releases⟩)
    (hroom : room) : Steps cfg s (next cfg s ⟨id,caller,.release answer,releases⟩) room := by
  cases releases with
  | nil => exact enter_effect h hr (p:=.done answer) rfl hroom (.refl _) (nofun) (fun _ _ => rfl) fun _ => rfl
  | cons p held =>
    obtain ⟨key,now⟩ := p
    refine ⟨h.release hr rfl,.shrink hroom fun k => ?_⟩
    show (update s.slots key ((s.slots key).delete id) k).size ≤ (s.slots k).size
    by_cases hk : k = key
    · rw [hk,update_self]
      exact length_filter_le _ _
    · rw [update_of_ne hk]

end

lemma next_effect (h : Exact cfg s) (ht : Timely cfg s) (hr : s.requests.get? id = some r) :
    Steps cfg s (next cfg s r) (RoomLeft s (.next id)) := by
  obtain ⟨id',caller,phase,releases⟩ := r
  obtain rfl : id' = id := key_of_get? hr
  cases phase with
  | acquire dims =>
    have hroom : RoomLeft s (.next id') := by simp [RoomLeft,hr]
    cases dims with
    | nil => exact untimed_effect h hr rfl hroom (.refl _) rfl (by simp) rfl
    | cons d rest =>
      exact enter_effect h hr (p:=.sweep s.clock d rest) rfl hroom (.refl _) (fun _ hnow => (Option.some.inj hnow).ge)
        (by simp) fun _ => rfl
  | sweep now d rest => exact sweep_effect h ht hr (by simp [RoomLeft,hr])
  | count now d rest => exact count_effect h hr (by simp [RoomLeft,hr])
  | insert now d rest => exact insert_effect h hr
  | relay =>
    have hroom : RoomLeft s (.next id') := by simp [RoomLeft,hr]
    exact untimed_effect h hr (p:=.release none) rfl hroom (.refl _) rfl (by simp) rfl
  | release answer => exact release_effect h hr (by simp [RoomLeft,hr])
  | done answer => exact ⟨h,.same (by simp [RoomLeft,hr]) rfl⟩

lemma step_effect (h : Exact cfg s) (hH : Healthy cfg s e) :
    Steps cfg s (step cfg s e) (RoomLeft s e) := by
  cases e with
  | arrive id c =>
    simp only [step]
    split
    · next hnone => exact ⟨h.arrive hnone c,.same trivial rfl⟩
    · exact ⟨h,.same trivial rfl⟩
  | next id =>
    simp only [step]
    split
    · next hnone => exact ⟨h,.same (by simp [RoomLeft,hnone]) rfl⟩
    · next r hr => exact next_effect h hH.1 hr
  | backendError id ran => cases hH.2
  | tick n => exact ⟨h.tick n,.same trivial rfl⟩
  | expire key =>
    simp only [step]
    split
    · exact ⟨h,.same trivial rfl⟩
    · next t hexp =>
      split
      · next hcome =>
        refine ⟨h.expire hH.1 hexp hcome,.shrink trivial fun k => ?_⟩
        show (update s.slots key empty k).size ≤ (s.slots k).size
        by_cases hk : k = key
        · rw [hk,update_self]
          exact Nat.zero_le _
        · rw [update_of_ne hk]
      · exact ⟨h,.same trivial rfl⟩

lemma within_iff (h : Exact cfg s) : Within cfg s ↔ ∀ c, ∀ d ∈ dimensions cfg c, ((s.slots d.key).size : ℤ) ≤ d.limit := by
  simp only [Within,h.size_slots]

lemma Change.within (hc : Change cfg s s' room) (h : Exact cfg s) (h' : Exact cfg s') (hroom : room)
    (hw : Within cfg s) : Within cfg s' := by
  rw [within_iff h] at hw
  rw [within_iff h']
  intro c' d' hd'
  have hbefore := hw c' d' hd'
  cases hc with
  | shrink _ hsize =>
    have := hsize d'.key
    omega
  | grow c d hd hother hself hfits _ =>
    by_cases hkey : d'.key = d.key
    · have := hfits.mp hroom
      rw [limit_of_key hd' hd hkey,hkey]
      omega
    · rw [hother _ hkey]
      exact hbefore

lemma Change.not_within (hc : Change cfg s s' room) (h' : Exact cfg s') (hroom : ¬room) : ¬Within cfg s' := by
  rw [within_iff h']
  cases hc with
  | shrink hfits => exact absurd hfits hroom
  | grow c d hd _ hself hfits _ =>
    intro hw
    have hafter := hw c d hd
    have hbefore := fun hlt => hroom (hfits.mpr hlt)
    exact hbefore (by omega)

lemma exact_start : Exact cfg {} := by
  refine ⟨fun _ _ => rfl,?_,?_,fun _ _ => rfl⟩
  · exact nofun
  · exact nofun

lemma within_start : Within cfg {} := fun _ _ hd => (mem_dimensions hd).1.le

lemma Exact.slots_empty (h : Exact cfg s) (hover : ∀ r ∈ s.requests.rows, ∃ answer, r.phase = .done answer) (key : String) :
    s.slots key = .empty := by
  ext1
  refine eq_nil_iff_forall_not_mem.mpr fun l hl => ?_
  obtain ⟨r,hr,hlease⟩ := h.holder hl
  obtain ⟨answer,hans⟩ := hover r (mem_of_get? hr)
  simp [lease,(h.regular _ r hr).ended answer hans] at hlease

end

/-- Every cap is kept exactly if every insert finds room; no slot is left at the end. -/
theorem cap_kept_iff (cfg : Config) (events : List Event) (hH : Along (step cfg) (Healthy cfg) {} events) :
    (cfg.redisEnabled = false → Always (step cfg) (Within cfg) {} events) ∧
      (Always (step cfg) (Within cfg) {} events ↔ Along (step cfg) RoomLeft {} events) ∧
      ((∀ r ∈ (run (step cfg) {} events).requests.rows, ∃ answer, r.phase = .done answer) →
        ∀ key, (run (step cfg) {} events).slots key = .empty) := by
  have hstep : ∀ s e, Exact cfg s ∧ Within cfg s → Healthy cfg s e → RoomLeft s e →
    Exact cfg (step cfg s e) ∧ Within cfg (step cfg s e) := by
    intro s e hs hH hroom
    obtain ⟨hexa,hcha⟩ := step_effect hs.1 hH
    exact ⟨hexa,hcha.within hs.1 hexa hroom hs.2⟩
  refine ⟨fun hlocal => ?_,?_,?_⟩
  · refine Always.mono (fun _ hs => hs.2) (always_of_along (G := Healthy cfg)
      (fun s e hs hH => hstep s e hs hH ?_) ⟨exact_start,within_start⟩ hH)
    cases (step_effect hs.1 hH).2 with
    | shrink hroom => exact hroom
    | grow _ _ _ _ _ _ hroom => exact hroom hlocal
  · refine always_iff_along_under hstep (fun _ hs => hs.2) (fun s e hs hH hno => ?_) ⟨exact_start,within_start⟩ hH
    obtain ⟨hexa,hcha⟩ := step_effect hs.1 hH
    exact hcha.not_within hexa hno
  · have hexa := run_invariant (I := Exact cfg) (fun s e hs hH => (step_effect hs hH).1) exact_start hH
    exact hexa.slots_empty

theorem counts_before_inserts :
    let cfg : Config := { redisEnabled := true, concurrencyLimitPerToken := 1 }
    let events : List Event := [.arrive 1 ⟨7,""⟩,.arrive 2 ⟨7,""⟩,.next 1,.next 1,.next 1,.next 2,.next 2,.next 2,.next 1,.next 2]
    Along (step cfg) (Healthy cfg) {} events ∧ ¬Within cfg (run (step cfg) {} events) := by
  intro cfg events
  refine ⟨by decide +kernel,fun hw => ?_⟩
  have hone := hw ⟨7,""⟩ ⟨"token","cc:tok:7",1⟩ (by decide)
  exact absurd hone (by decide)

theorem cap_kept_in_turn :
    let cfg : Config := { redisEnabled := true, concurrencyLimitPerToken := 1 }
    let events : List Event := [.arrive 1 ⟨7,""⟩,.arrive 2 ⟨7,""⟩,.next 1,.next 1,.next 2,.next 1,.next 1,.next 2,.next 2,.next 2]
    Along (step cfg) (Healthy cfg) {} events ∧ Always (step cfg) (Within cfg) {} events := by
  intro cfg events
  have hH : Along (step cfg) (Healthy cfg) {} events := by decide +kernel
  exact ⟨hH,(cap_kept_iff cfg events hH).2.1.mpr (by decide +kernel)⟩

end LurusHub.ConcurrencyLimit
