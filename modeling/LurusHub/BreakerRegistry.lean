import LurusHub.CircuitBreaker
import Mathlib.Order.Bounds.Basic

/-! The registry of circuit breakers, one per channel, created on first use. `AllOpen` reads each
breaker by a case split of its own; both readings are accounted for by the instant from which a
breaker admits. -/
namespace LurusHub.CircuitBreaker
open Transition Option Breaker List

/-! The instant from which a breaker admits. -/

namespace Breaker

/-- `none` admits at any time. -/
def readyAt (b : Breaker) : Option ℤ :=
  match b.state with
  | .stateClosed => none
  | .stateOpen => some (b.lastFailTime+b.timeout)
  | .stateHalfOpen => some (b.halfOpenSince+b.halfOpenTimeout)

def admitsIn (b : Breaker) (now : ℤ) : ℤ × Bool :=
  let remaining := match b.state with
    | .stateOpen => some (b.timeout-(now-b.lastFailTime))
    | .stateHalfOpen => some (b.halfOpenTimeout-(now-b.halfOpenSince))
    | .stateClosed => none
  match remaining with
  | none => (0,false)
  | some wait => if wait ≤ 0 then (0,false) else (wait,true)

variable {b : Breaker}

lemma allow_eq_true : (b.allow now later).1 ↔ ∀ t ∈ b.readyAt, t ≤ now := by
  cases h : b.state with
  | stateClosed => simp [allow,readyAt,h]
  | stateOpen =>
    rw [allow_open h,apply_ite Prod.fst]
    simp [readyAt,h,le_sub_iff_add_le']
  | stateHalfOpen =>
    rw [allow_halfOpen h,apply_ite Prod.fst]
    simp [readyAt,h,le_sub_iff_add_le']

lemma allow_eq_false : (b.allow now later).1 = false ↔ ∃ t ∈ b.readyAt, now < t := by
  rw [← Bool.not_eq_true,allow_eq_true]
  push Not
  rfl

lemma allow_refused (h : (b.allow now later).1 = false) : (b.allow now later).2 = b := by
  cases hs : b.state with
  | stateClosed => rw [allow_closed hs]
  | stateOpen =>
    rw [allow_open hs] at h ⊢
    split at h
    · cases h
    · simp [*]
  | stateHalfOpen =>
    rw [allow_halfOpen hs] at h ⊢
    split at h
    · cases h
    · simp [*]

lemma admitsIn_eq_true : b.admitsIn now = (wait,true) ↔ ∃ t ∈ b.readyAt, now < t ∧ wait = t-now := by
  cases h : b.state with
  | stateClosed => simp [admitsIn,readyAt,h]
  | stateOpen | stateHalfOpen =>
    simp only [admitsIn,readyAt,h]
    split <;> simp <;> omega

theorem readyAt_allow (ht : t ∈ (b.allow now later).2.readyAt) :
    t ∈ b.readyAt ∨ t = later+b.halfOpenTimeout := by
  cases hs : b.state with
  | stateClosed =>
    rw [allow_closed hs] at ht
    exact .inl ht
  | stateOpen =>
    rw [allow_open hs] at ht
    split at ht
    · exact .inr (some.inj ht).symm
    · exact .inl ht
  | stateHalfOpen =>
    rw [allow_halfOpen hs] at ht
    split at ht
    · simp only [readyAt,hs,mem_def,some.injEq] at ht
      exact .inr ht.symm
    · exact .inl ht

lemma readyAt_record (ht : t ∈ (b.record now o).readyAt) : t ∈ b.readyAt ∨ t = now+b.timeout := by
  cases o with
  | success => cases ht
  | failure =>
    cases hs : b.state with
    | stateClosed =>
      simp only [record,recordFailure,hs] at ht
      split at ht
      · exact .inr (some.inj ht).symm
      · simp [readyAt] at ht
    | stateOpen =>
      simp only [record,recordFailure,readyAt,hs,mem_def,some.injEq] at ht
      exact .inr ht.symm
    | stateHalfOpen =>
      simp only [record,recordFailure,hs] at ht
      exact .inr (some.inj ht).symm
  | inconclusive =>
    simp only [record,recordInconclusive] at ht
    split at ht
    · exact .inr (some.inj ht).symm
    · exact .inl ht

end Breaker

/-! The registry. -/

structure Registry where
  cfg : Config
  breakers : ℤ → Option Breaker

namespace Registry

def newRegistry (cfg : Config) : Registry := ⟨cfg,fun _ => none⟩

def getOrCreate (r : Registry) (channelID : ℤ) : Breaker × Registry :=
  match r.breakers channelID with
  | some b => (b,r)
  | none =>
    let b := CircuitBreaker.getOrCreate r.cfg
    (b,{ r with breakers := Function.update r.breakers channelID (some b) })

def set (r : Registry) (channelID : ℤ) (b : Breaker) : Registry :=
  { r with breakers := Function.update r.breakers channelID (some b) }

def allow (r : Registry) (channelID now later : ℤ) : Bool × Registry :=
  let (b,r) := r.getOrCreate channelID
  let (ok,b') := b.allow now later
  (ok,r.set channelID b')

/-- `RecordSuccess`, `RecordFailure` and `RecordInconclusive`. -/
def record (r : Registry) (channelID now : ℤ) (outcome : Outcome) : Registry :=
  let (b,r) := r.getOrCreate channelID
  r.set channelID (b.record now outcome)

def listed (r : Registry) : List ℤ → Option (List Breaker)
  | [] => some []
  | id::ids =>
    match r.breakers id with
    | none => none
    | some b => (r.listed ids).map (b::·)

def soonestWait (now : ℤ) : Option ℤ → List Breaker → Bool × ℤ
  | soonest,[] => (true,soonest.getD 0)
  | soonest,b::brs =>
    match b.admitsIn now with
    | (_,false) => (false,0)
    | (wait,true) =>
      soonestWait now (some (match soonest with
        | none => wait
        | some w => if wait < w then wait else w)) brs

/-- Whether every listed channel refuses, and how long the first of them still does. -/
def allOpen (r : Registry) (ids : List ℤ) (now : ℤ) : (Bool × ℤ) × Registry :=
  if ids = [] then ((false,0),r)
  else match r.listed ids with
    | none => ((false,0),r)
    | some brs => (soonestWait now none brs,r)

/-! A call of the registry is a call of one breaker. -/

section
variable (r : Registry) (id : ℤ)

def breakerOf : Breaker := (r.breakers id).getD (CircuitBreaker.getOrCreate r.cfg)

def readyAt : Option ℤ := (r.breakerOf id).readyAt

lemma allow_eq : r.allow id now later =
    (((r.breakerOf id).allow now later).1,r.set id ((r.breakerOf id).allow now later).2) := by
  cases h : r.breakers id <;> simp [allow,getOrCreate,breakerOf,set,h]

lemma record_eq (o : Outcome) : r.record id now o = r.set id ((r.breakerOf id).record now o) := by
  cases h : r.breakers id <;> simp [record,getOrCreate,breakerOf,set,h]

lemma readyAt_of_none (h : r.breakers id = none) : r.readyAt id = none := by
  simp [readyAt,breakerOf,h,CircuitBreaker.getOrCreate,Breaker.readyAt]

lemma allow_eq_true : (r.allow id now later).1 ↔ ∀ t ∈ r.readyAt id, t ≤ now := by
  rw [allow_eq]
  exact Breaker.allow_eq_true

lemma allow_eq_false : (r.allow id now later).1 = false ↔ ∃ t ∈ r.readyAt id, now < t := by
  rw [allow_eq]
  exact Breaker.allow_eq_false

end

/-! The read-only view. -/

section
variable {r : Registry}

lemma listed_cases (ids : List ℤ) :
    ((∃ id ∈ ids, r.breakers id = none) ∧ r.listed ids = none) ∨ r.listed ids = some (ids.map r.breakerOf) := by
  induction ids with
  | nil => exact .inr rfl
  | cons id ids ih =>
    cases h : r.breakers id with
    | none => exact .inl ⟨⟨id,mem_cons_self,h⟩,by simp [listed,h]⟩
    | some b =>
      rcases ih with ⟨⟨id',hid',hnone⟩,hlist⟩ | hlist
      · exact .inl ⟨⟨id',mem_cons_of_mem _ hid',hnone⟩,by simp [listed,h,hlist]⟩
      · exact .inr (by simp [listed,h,hlist,breakerOf])

theorem listed_of_refuse (h : ∀ id ∈ ids, ∃ t ∈ r.readyAt id, now < t) :
    r.listed ids = some (ids.map r.breakerOf) := by
  rcases r.listed_cases ids with ⟨⟨id,hid,hnone⟩,-⟩ | hlist
  · obtain ⟨t,ht,-⟩ := h id hid
    rw [readyAt_of_none r id hnone] at ht
    cases ht
  · exact hlist

def shorter (soonest : Option ℤ) (wait : ℤ) : ℤ :=
  match soonest with
  | none => wait
  | some w => if wait < w then wait else w

lemma soonestWait_refused (ht : t ∈ b.readyAt) (hlt : now < t) :
    soonestWait now soonest (b::brs) = soonestWait now (some (shorter soonest (t-now))) brs := by
  have hadmits := admitsIn_eq_true.mpr ⟨t,ht,hlt,rfl⟩
  simp only [soonestWait,hadmits]
  rfl

lemma soonestWait_eq_true : (soonestWait now soonest brs).1 ↔ ∀ b ∈ brs, ∃ t ∈ b.readyAt, now < t := by
  induction brs generalizing soonest with
  | nil => simp [soonestWait]
  | cons b brs ih =>
    rw [forall_mem_cons]
    cases hadmits : b.admitsIn now with
    | mk wait refuses =>
      cases refuses with
      | false =>
        simp only [soonestWait,hadmits,Bool.false_eq_true,false_iff]
        rintro ⟨⟨t,ht,hlt⟩,-⟩
        have htrue := admitsIn_eq_true.mpr ⟨t,ht,hlt,rfl⟩
        rw [hadmits] at htrue
        cases htrue
      | true =>
        obtain ⟨t,ht,hlt,-⟩ := admitsIn_eq_true.mp hadmits
        rw [soonestWait_refused ht hlt,ih]
        exact ⟨fun h => ⟨⟨t,ht,hlt⟩,h⟩,And.right⟩

def Waits (now : ℤ) (soonest : Option ℤ) (brs : List Breaker) : Set ℤ :=
  {w | w ∈ soonest ∨ ∃ b ∈ brs, ∃ t ∈ b.readyAt, w = t-now}

lemma isLeast_waits_cons (ht : t ∈ b.readyAt)
    (h : IsLeast (Waits now (some (shorter soonest (t-now))) brs) d) : IsLeast (Waits now soonest (b::brs)) d := by
  have hle : ∀ w ∈ soonest, shorter soonest (t-now) ≤ w := by
    rintro w rfl
    simp only [shorter]
    split <;> omega
  have hwait : shorter soonest (t-now) ≤ t-now := by
    cases soonest with
    | none => exact le_rfl
    | some w =>
      simp only [shorter]
      split <;> omega
  have hfrom : shorter soonest (t-now) ∈ soonest ∨ shorter soonest (t-now) = t-now := by
    cases soonest with
    | none => exact .inr rfl
    | some w =>
      simp only [shorter]
      split
      · exact .inr rfl
      · exact .inl rfl
  obtain ⟨hmem,hlow⟩ := h
  have hshort := hlow (.inl rfl)
  constructor
  · rcases hmem with hd | ⟨b',hb',hw⟩
    · cases hd
      rcases hfrom with hold | hnew
      · exact .inl hold
      · exact .inr ⟨b,mem_cons_self,t,ht,hnew⟩
    · exact .inr ⟨b',mem_cons_of_mem _ hb',hw⟩
  · rintro w (hw | ⟨b',hb',u,hu,rfl⟩)
    · exact hshort.trans (hle w hw)
    · rcases mem_cons.mp hb' with rfl | hb'
      · obtain rfl := mem_unique hu ht
        exact hshort.trans hwait
      · exact hlow (.inr ⟨b',hb',u,hu,rfl⟩)

lemma soonestWait_isLeast (hne : soonest = none → brs ≠ [])
    (href : ∀ b ∈ brs, ∃ t ∈ b.readyAt, now < t) :
    IsLeast (Waits now soonest brs) (soonestWait now soonest brs).2 := by
  induction brs generalizing soonest with
  | nil =>
    cases soonest with
    | none => exact absurd rfl (hne rfl)
    | some w => simp [Waits,soonestWait]
  | cons b brs ih =>
    obtain ⟨⟨t,ht,hlt⟩,hrest⟩ := forall_mem_cons.mp href
    rw [soonestWait_refused ht hlt]
    exact isLeast_waits_cons ht (ih (nofun) hrest)

lemma allOpen_eq_true :
    (r.allOpen ids now).1.1 ↔ ids ≠ [] ∧ ∀ id ∈ ids, ∃ t ∈ r.readyAt id, now < t := by
  by_cases hids : ids = []
  · simp [allOpen,hids]
  · rcases r.listed_cases ids with ⟨-,hlist⟩ | hlist
    · simp only [allOpen,hids,hlist,if_false,Bool.false_eq_true,false_iff]
      rintro ⟨-,href⟩
      rw [listed_of_refuse href] at hlist
      cases hlist
    · simp only [allOpen,hids,hlist,if_false,soonestWait_eq_true,List.forall_mem_map]
      exact ⟨fun h => ⟨hids,h⟩,And.right⟩

lemma allOpen_isLeast (h : (r.allOpen ids now).1.1) :
    IsLeast {w | ∃ id ∈ ids, ∃ t ∈ r.readyAt id, w = t-now} (r.allOpen ids now).1.2 := by
  obtain ⟨hids,href⟩ := allOpen_eq_true.mp h
  have hleast : IsLeast (Waits now none (ids.map r.breakerOf)) _ :=
    soonestWait_isLeast (fun _ => by simpa using hids) (forall_mem_map.mpr href)
  simp only [allOpen,hids,listed_of_refuse href]
  simpa [Waits,readyAt] using hleast

end

/-! Calls under a clock that does not go back. -/

structure Service extends Registry where
  now : ℤ

inductive Call
  | allow (channelID : ℤ) (lag : ℕ)
  | record (channelID : ℤ) (outcome : Outcome)

/-- A call comes with the time that has passed since the last one. -/
def serve (s : Service) (l : ℕ × Call) : Service :=
  match l.2 with
  | .allow channelID lag => ⟨(s.allow channelID (s.now+l.1) (s.now+l.1+lag)).2,s.now+l.1+lag⟩
  | .record channelID outcome => ⟨s.record channelID (s.now+l.1) outcome,s.now+l.1⟩

def start (cfg : Config) (now : ℤ) : Service := ⟨newRegistry cfg,now⟩

/-- The time of the last call that changed the breaker of a channel, `changed` if none does. -/
def lastChange (id : ℤ) : Service → ℤ → List (ℕ × Call) → ℤ
  | _,changed,[] => changed
  | s,changed,l::ls =>
    let s' := serve s l
    lastChange id s' (if s'.breakers id = s.breakers id then changed else s'.now) ls

def longestWait (cfg : Config) : ℤ := max cfg.timeout (CircuitBreaker.getOrCreate cfg).halfOpenTimeout

def Configured (cfg : Config) (s : Service) : Prop :=
  s.cfg = cfg ∧ ∀ id, (s.breakerOf id).toConfig = (CircuitBreaker.getOrCreate cfg).toConfig

def Call.channelID : Call → ℤ
  | .allow channelID _ => channelID
  | .record channelID _ => channelID

section
variable {cfg : Config} {s : Service} {id : ℤ}

lemma breakerOf_set (r : Registry) :
    (r.set id b).breakerOf id' = if id' = id then b else r.breakerOf id' := by
  by_cases h : id' = id <;> simp [breakerOf,set,h]

lemma serve_spec (s : Service) (l : ℕ × Call) :
    s.now ≤ (serve s l).now ∧ ∃ b : Breaker, (serve s l).toRegistry = s.set l.2.channelID b ∧
      b.toConfig = (s.breakerOf l.2.channelID).toConfig ∧
      ∀ t ∈ b.readyAt, t ∈ s.readyAt l.2.channelID ∨ t = (serve s l).now+b.timeout ∨
        t = (serve s l).now+b.halfOpenTimeout := by
  obtain ⟨d,c⟩ := l
  cases c with
  | allow channelID lag =>
    have hcfg := (s.breakerOf channelID).allow_toConfig (s.now+d) (s.now+d+lag)
    refine ⟨by simp only [serve]; omega,_,congrArg Prod.snd (s.allow_eq channelID),hcfg,fun t ht => ?_⟩
    rcases readyAt_allow ht with hold | hnew
    · exact .inl hold
    · exact .inr (.inr (by rw [hnew,hcfg]; rfl))
  | record channelID outcome =>
    have hcfg := (s.breakerOf channelID).record_toConfig (s.now+d) outcome
    refine ⟨by simp only [serve]; omega,_,s.record_eq channelID outcome,hcfg,fun t ht => ?_⟩
    rcases readyAt_record ht with hold | hnew
    · exact .inl hold
    · exact .inr (.inl (by rw [hnew,hcfg]; rfl))

lemma now_le_run (s : Service) (ls : List (ℕ × Call)) : s.now ≤ (run serve s ls).now := by
  induction ls generalizing s with
  | nil => exact le_rfl
  | cons l ls ih => exact (serve_spec s l).1.trans (ih (serve s l))

lemma Configured.serve (h : Configured cfg s) (l : ℕ × Call) : Configured cfg (Registry.serve s l) := by
  obtain ⟨-,b,hset,hcon,-⟩ := serve_spec s l
  obtain ⟨hcfg,hbre⟩ := h
  refine ⟨by rw [hset]; exact hcfg,fun id => ?_⟩
  rw [hset,breakerOf_set]
  split
  · rw [hcon]
    exact hbre _
  · exact hbre id

lemma Configured.readyAt_serve (h : Configured cfg s) (ht : t ∈ (Registry.serve s l).readyAt id) :
    t ∈ s.readyAt id ∨ t ≤ (Registry.serve s l).now+longestWait cfg := by
  obtain ⟨-,b,hset,hcon,hrea⟩ := serve_spec s l
  rw [h.2] at hcon
  rw [hset,Registry.readyAt,breakerOf_set] at ht
  split at ht
  · next hid =>
    rcases hrea t ht with hold | hnew | hnew
    · exact .inl (hid ▸ hold)
    · have htimeout := congrArg Config.timeout hcon
      change b.timeout = cfg.timeout at htimeout
      exact .inr (by rw [longestWait]; omega)
    · have hhalf := congrArg Config.halfOpenTimeout hcon
      exact .inr (by rw [longestWait]; omega)
  · exact .inl ht

lemma configured_start : Configured cfg (start cfg now) := ⟨rfl,fun _ => rfl⟩

lemma Configured.readyAt_same (h : Configured cfg s)
    (hsame : (Registry.serve s l).breakers id = s.breakers id) :
    (Registry.serve s l).readyAt id = s.readyAt id := by
  simp only [Registry.readyAt,breakerOf,hsame,h.1,(h.serve l).1]

lemma Configured.readyAt_le_lastChange (h : Configured cfg s) (hcha : changed ≤ s.now)
    (hrea : ∀ t ∈ s.readyAt id, t ≤ changed+longestWait cfg) :
    ∀ t ∈ (run Registry.serve s ls).readyAt id, t ≤ lastChange id s changed ls+longestWait cfg := by
  induction ls generalizing s changed with
  | nil => exact hrea
  | cons l ls ih =>
    have hclock := (serve_spec s l).1
    by_cases hsame : (Registry.serve s l).breakers id = s.breakers id
    · simp only [lastChange,hsame]
      refine ih (h.serve l) (hcha.trans hclock) ?_
      rw [h.readyAt_same hsame]
      exact hrea
    · simp only [lastChange,hsame]
      refine ih (h.serve l) le_rfl fun t ht => ?_
      rcases h.readyAt_serve ht with hold | hnear
      · have hle := hrea t hold
        omega
      · exact hnear

/-! While the listed channels wait. -/

def asks (waits : List (ℕ × ℤ × ℕ)) : List (ℕ × Call) := waits.map fun w => (w.1,.allow w.2.1 w.2.2)

lemma readyAt_ask (ht : t ∈ s.readyAt id) {d : ℕ} (hlt : s.now+d < t) (channelID : ℤ) (lag : ℕ) :
    (serve s (d,.allow channelID lag)).readyAt id = s.readyAt id := by
  change (s.allow channelID (s.now+d) (s.now+d+lag)).2.readyAt id = s.readyAt id
  rw [allow_eq,Registry.readyAt,breakerOf_set]
  split
  · next hid =>
    subst hid
    rw [Breaker.allow_refused (Breaker.allow_eq_false.mpr ⟨t,ht,hlt⟩)]
    rfl
  · rfl

lemma readyAt_asks (ht : t ∈ s.readyAt id)
    (hlt : (run serve s (asks waits)).now < t) : (run serve s (asks waits)).readyAt id = s.readyAt id := by
  induction waits generalizing s with
  | nil => rfl
  | cons w waits ih =>
    obtain ⟨d,channelID,lag⟩ := w
    have hclock := now_le_run (serve s (d,.allow channelID lag)) (asks waits)
    have hask : (serve s (d,.allow channelID lag)).now = s.now+d+lag := rfl
    have hlast : (run serve (serve s (d,.allow channelID lag)) (asks waits)).now < t := hlt
    have hbefore : s.now+d < t := by omega
    have hstep := readyAt_ask ht hbefore channelID lag
    have hrest := ih (hstep ▸ ht) hlt
    exact hrest.trans hstep

theorem admits_isLeast (h : (r.allOpen ids now).1.1)
    (hlt : (run serve ⟨r,now⟩ (asks waits)).now < now+(r.allOpen ids now).1.2) :
    IsLeast {d | ∃ id ∈ ids, ∀ lag : ℕ, ((run serve ⟨r,now⟩ (asks waits)).allow id (now+d) (now+d+lag)).1}
      (r.allOpen ids now).1.2 := by
  obtain ⟨⟨id,hid,t,ht,hd⟩,hlow⟩ := allOpen_isLeast h
  obtain ⟨-,href⟩ := allOpen_eq_true.mp h
  have hkept : ∀ id ∈ ids, ∀ t ∈ r.readyAt id, (run serve ⟨r,now⟩ (asks waits)).readyAt id = r.readyAt id := by
    intro id hid t ht
    have hle := hlow ⟨id,hid,t,ht,rfl⟩
    exact readyAt_asks (s := ⟨r,now⟩) ht (by omega)
  constructor
  · refine ⟨id,hid,fun lag => ?_⟩
    rw [allow_eq_true,hkept id hid t ht]
    intro u hu
    obtain rfl := mem_unique hu ht
    omega
  · rintro d ⟨id',hid',hadmits⟩
    obtain ⟨u,hu,-⟩ := href id' hid'
    have hrea := hadmits 0
    rw [allow_eq_true,hkept id' hid' u hu] at hrea
    have hle := hlow ⟨id',hid',u,hu,rfl⟩
    have hnow := hrea u hu
    omega

/-- `AllOpen` tells what `Allow` would answer and when that changes. -/
theorem allOpen_predicts (cfg : Config) (begin : ℤ) (calls : List (ℕ × Call)) :
    let s := run serve (start cfg begin) calls
    (∀ ids now,(s.allOpen ids now).2 = s.toRegistry ∧ ((s.allOpen ids now).1.1 = true ↔
        ids ≠ [] ∧ ∀ id ∈ ids, ∀ lag : ℕ, (s.allow id now (now+lag)).1 = false) ∧
      ((s.allOpen ids now).1.1 = true → 0 < (s.allOpen ids now).1.2 ∧
        ∀ waits, (run serve ⟨s.toRegistry,now⟩ (asks waits)).now < now+(s.allOpen ids now).1.2 →
          IsLeast {d | ∃ id ∈ ids, ∀ lag : ℕ,
              ((run serve ⟨s.toRegistry,now⟩ (asks waits)).allow id (now+d) (now+d+lag)).1 = true}
            (s.allOpen ids now).1.2)) ∧
    ∀ id now, lastChange id (start cfg begin) begin calls+longestWait cfg ≤ now →
      ∀ lag : ℕ, (s.allow id now (now+lag)).1 = true := by
  intro s
  refine ⟨fun ids now => ⟨?_,?_,fun h => ⟨?_,fun waits hlt => admits_isLeast h hlt⟩⟩,fun id now hnow lag => ?_⟩
  · simp only [allOpen]
    repeat' split
    all_goals rfl
  · rw [allOpen_eq_true]
    simp only [allow_eq_false]
    simp
  · obtain ⟨-,href⟩ := allOpen_eq_true.mp h
    obtain ⟨⟨id,hid,t,ht,hd⟩,-⟩ := allOpen_isLeast h
    obtain ⟨u,hu,hlt⟩ := href id hid
    obtain rfl := mem_unique hu ht
    omega
  · rw [allow_eq_true]
    intro t ht
    have hle : t ≤ lastChange id (start cfg begin) begin calls+longestWait cfg :=
      (configured_start).readyAt_le_lastChange le_rfl (nofun) t ht
    omega

theorem allOpen_predicts_tripped :
    let s := run serve (start { threshold := 1, timeout := 30, halfOpenTimeout := 0 } 0) [(0,.record 7 .failure)]
    (s.allOpen [7] 10).1 = (true,20) ∧
    IsLeast {d | ∃ id ∈ [7], ∀ lag : ℕ, (s.allow id (10+d) (10+d+lag)).1 = true} 20 ∧
    (s.allow 7 30 30).1 = true := by
  intro s
  have hpred := allOpen_predicts { threshold := 1, timeout := 30, halfOpenTimeout := 0 } 0 [(0,.record 7 .failure)]
  have hopen : (s.allOpen [7] 10).1 = (true,20) := by decide
  have hleast := ((hpred.1 [7] 10).2.2 (by decide)).2 [] (by decide)
  exact ⟨hopen,hleast,hpred.2 7 30 (by decide) 0⟩

end

end Registry

end LurusHub.CircuitBreaker
