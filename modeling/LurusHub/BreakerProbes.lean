import LurusHub.CircuitBreaker

/-! Single probes after a trip: until a request admitted since then reports success, the breaker
ought to refuse for its timeout and then to let one request through at a time. Reports that are not
the current probe's keep it from doing so. -/
namespace LurusHub.CircuitBreaker
open Transition Breaker List Option

/-! The requests since the trip. -/

/-- One of the requests admitted since the trip has reported success. -/
def Recovered (trip s : System) : Prop :=
  ∃ i r, trip.requests.length ≤ i ∧ s.requests[i]? = some r ∧ r.report = some .success

/-- Each of the first `k` requests, if admitted since the trip, has reported or is no probe any more
at `x`. -/
def Quiet (trip s : System) (k : ℕ) (x : ℤ) : Prop :=
  ∀ i r, trip.requests.length ≤ i → i < k → s.requests[i]? = some r →
    r.report.isSome = true ∨ r.admittedAt+trip.breaker.halfOpenTimeout ≤ x

/-- Until a request admitted since the trip reports success, an `Allow` after `d` returns true only
if the timeout of the trip is over and no request admitted since is out as a probe. -/
def Single (trip s : System) : Prop :=
  ¬Recovered trip s → ∀ d lag : ℕ, (s.breaker.allow (s.now+d) (s.now+d+lag)).1 = true →
    trip.now+trip.breaker.timeout ≤ s.now+d ∧ Quiet trip s s.requests.length (s.now+d)

def call (c : ℕ × ℕ) : ℕ × Event := (c.1,.allow c.2)

/-- So it is now and after any further calls of `Allow`. -/
def Probes (trip s : System) : Prop := ∀ calls : List (ℕ × ℕ), Single trip (run step s (calls.map call))

/-- A success is of a request admitted since the trip; another report that finds the breaker half
open is the probe's, or starts a timeout that outlasts the probe's time. -/
def Harmless (trip s : System) : ℕ × Event → Prop
  | (_,.allow _) => True
  | (d,.report id outcome) =>
    Recovered trip s ∨ ∀ r, s.requests[id]? = some r → r.report = none →
      if outcome = .success then trip.requests.length ≤ id
      else s.breaker.state = .stateHalfOpen → id+1 = s.requests.length ∨
        s.breaker.halfOpenSince+trip.breaker.halfOpenTimeout ≤ s.now+d+trip.breaker.timeout

lemma Quiet.mono (h : Quiet trip s k x) (hxy : x ≤ y) : Quiet trip s k y := by
  intro i r hi hk hr
  rcases h i r hi hk hr with hrep | hold
  · exact .inl hrep
  · exact .inr (hold.trans hxy)

lemma Quiet.snoc (h : Quiet trip s (s.requests.length-1) x) (hlast : s.requests[s.requests.length-1]? = some r)
    (hr : r.report.isSome ∨ r.admittedAt+trip.breaker.halfOpenTimeout ≤ x) : Quiet trip s s.requests.length x := by
  intro i q hi hk hq
  by_cases hi' : i = s.requests.length-1
  · rw [hi',hlast] at hq
    exact some.inj hq ▸ hr
  · exact h i q hi (by omega) hq

lemma Quiet.append (h : Quiet trip s s.requests.length x) (ht : t.requests = s.requests++[r]) :
    Quiet trip t s.requests.length x := by
  intro i q hi hk hq
  rw [ht,getElem?_append_left hk] at hq
  exact h i q hi hk hq

lemma Quiet.set (h : Quiet trip s k x) {id : ℕ}
    (ht : t.requests = s.requests.set id ⟨admittedAt,some outcome⟩) : Quiet trip t k x := by
  intro i q hi hk hq
  rw [ht,getElem?_set] at hq
  split at hq
  · split at hq
    · cases hq
      exact .inl rfl
    · cases hq
  · exact h i q hi hk hq

/-! One step. -/

lemma step_refused {lag : ℕ} (h : (s.breaker.allow (s.now+d) (s.now+d+lag)).1 = false) :
    step s (d,.allow lag) = ⟨(s.breaker.allow (s.now+d) (s.now+d+lag)).2,s.now+d+lag,s.requests⟩ := by
  simp [step,h]

lemma step_admitted {lag : ℕ} (h : (s.breaker.allow (s.now+d) (s.now+d+lag)).1) :
    step s (d,.allow lag) =
      ⟨(s.breaker.allow (s.now+d) (s.now+d+lag)).2,s.now+d+lag,s.requests++[{ admittedAt := s.now+d+lag }]⟩ := by
  simp [step,h]

lemma step_report {id : ℕ} (h : s.requests[id]? = some ⟨admittedAt,none⟩) :
    step s (d,.report id outcome) =
      ⟨s.breaker.record (s.now+d) outcome,s.now+d,s.requests.set id ⟨admittedAt,some outcome⟩⟩ := by
  simp [step,h]

lemma step_ignored {id : ℕ} (h : ∀ r, s.requests[id]? = some r → r.report ≠ none) :
    step s (d,.report id outcome) = { s with now := s.now+d } := by
  simp only [step]
  split
  · next hr => exact absurd rfl (h _ hr)
  · rfl

lemma step_toConfig : (step s l).breaker.toConfig = s.breaker.toConfig := by
  obtain ⟨d,e⟩ := l
  cases e with
  | allow lag => exact allow_toConfig _ _ _
  | report id outcome =>
    simp only [step]
    split
    · exact record_toConfig _ _ _
    · rfl

lemma recovered_step (h : Recovered trip s) : Recovered trip (step s l) := by
  obtain ⟨i,r,hi,hr,hs⟩ := h
  obtain ⟨d,e⟩ := l
  refine ⟨i,r,hi,?_,hs⟩
  cases e with
  | allow lag =>
    cases hok : (s.breaker.allow (s.now+d) (s.now+d+lag)).1 with
    | false => rw [step_refused hok]; exact hr
    | true =>
      rw [step_admitted hok]
      have hlt : i < s.requests.length := (List.getElem?_eq_some_iff.mp hr).1
      exact (List.getElem?_append_left hlt).trans hr
  | report id outcome =>
    simp only [step]
    split
    · next admittedAt hid =>
      -- the reporting request is another one: it had not reported before
      have hne : id ≠ i := by
        rintro rfl
        obtain rfl := some.inj (hr.symm.trans hid)
        cases hs
      rw [getElem?_set_ne hne]
      exact hr
    · exact hr

/-! What holds from the trip on. -/

structure HeldOpen (trip s : System) : Prop where
  state : s.breaker.state = .stateOpen
  after : trip.now ≤ s.breaker.lastFailTime
  past : s.breaker.lastFailTime ≤ s.now
  quiet : Quiet trip s s.requests.length (s.breaker.lastFailTime+trip.breaker.timeout)

structure HeldHalfOpen (trip s : System) : Prop where
  state : s.breaker.state = .stateHalfOpen
  probe : s.requests[s.requests.length-1]? = some ⟨s.breaker.halfOpenSince,none⟩
  after : trip.now+trip.breaker.timeout ≤ s.breaker.halfOpenSince
  past : s.breaker.halfOpenSince ≤ s.now
  quiet : Quiet trip s (s.requests.length-1) s.breaker.halfOpenSince
  grown : trip.requests.length < s.requests.length

structure Tripped (trip s : System) : Prop where
  config : s.breaker.toConfig = trip.breaker.toConfig
  grown : trip.requests.length ≤ s.requests.length
  held : HeldOpen trip s ∨ HeldHalfOpen trip s

section
variable {d : ℕ}

section
variable (h : Tripped trip s)
include h

lemma Tripped.timeout : s.breaker.timeout = trip.breaker.timeout := congrArg Config.timeout h.config

lemma Tripped.halfOpenTimeout : s.breaker.halfOpenTimeout = trip.breaker.halfOpenTimeout :=
  congrArg Config.halfOpenTimeout h.config

theorem Tripped.allows (d lag : ℕ) : s.breaker.allow (s.now+d) (s.now+d+lag) = (false,s.breaker) ∨
    ∃ b, s.breaker.allow (s.now+d) (s.now+d+lag) = (true,b) ∧ b.state = .stateHalfOpen ∧ b.halfOpenSince = s.now+d+lag ∧
      trip.now+trip.breaker.timeout ≤ s.now+d ∧ Quiet trip s s.requests.length (s.now+d) := by
  rcases h.held with hopen | hhalf
  · rw [allow_open hopen.state,h.timeout]
    split
    · have hafter := hopen.after
      exact .inr ⟨_,rfl,rfl,rfl,by omega,hopen.quiet.mono (by omega)⟩
    · exact .inl rfl
  · rw [allow_halfOpen hhalf.state,h.halfOpenTimeout]
    split
    · have hpast := hhalf.past
      have hafter := hhalf.after
      refine .inr ⟨_,rfl,hhalf.state,rfl,by omega,(hhalf.quiet.mono (by omega)).snoc hhalf.probe (.inr ?_)⟩
      dsimp only
      omega
    · exact .inl rfl

lemma Tripped.later (hnow : s.now ≤ now) : Tripped trip { s with now } := by
  refine ⟨h.config,h.grown,?_⟩
  rcases h.held with hopen | hhalf
  · exact .inl ⟨hopen.state,hopen.after,hopen.past.trans hnow,hopen.quiet⟩
  · exact .inr ⟨hhalf.state,hhalf.probe,hhalf.after,hhalf.past.trans hnow,hhalf.quiet,hhalf.grown⟩

lemma Tripped.allow (lag : ℕ) : Tripped trip (step s (d,.allow lag)) := by
  rcases h.allows d lag with heq | ⟨b,heq,hsta,hsin,hafter,hquiet⟩
  · rw [step_refused (congrArg Prod.fst heq),heq]
    exact h.later (by omega)
  · have hcfg := allow_toConfig s.breaker (s.now+d) (s.now+d+lag)
    rw [heq] at hcfg
    rw [step_admitted (congrArg Prod.fst heq),heq]
    have hgro := h.grown
    refine ⟨hcfg.trans h.config,?_,.inr ⟨hsta,?_,?_,?_,?_,?_⟩⟩
    · simp only [length_append]
      omega
    · simp [hsin]
    · simp only [hsin]
      omega
    · exact hsin.le
    · simp only [length_append]
      exact (hquiet.mono (by omega)).append rfl
    · simp only [length_append,length_singleton]
      omega

lemma Tripped.report {id : ℕ} (ho : outcome ≠ .success) (hid : s.requests[id]? = some ⟨admittedAt,none⟩)
    (hpro : s.breaker.state = .stateHalfOpen → id+1 = s.requests.length ∨
      s.breaker.halfOpenSince+trip.breaker.halfOpenTimeout ≤ s.now+d+trip.breaker.timeout) (hpos : 0 < trip.breaker.timeout) :
    Tripped trip (step s (d,.report id outcome)) := by
  rw [step_report hid]
  refine ⟨(record_toConfig _ _ _).trans h.config,by simpa using h.grown,.inl ?_⟩
  rcases h.held with hopen | hhalf
  · obtain ⟨hsta,hlast⟩ := record_open hopen.state ho (s.now+d)
    have hpast := hopen.past
    have hafter := hopen.after
    refine ⟨hsta,?_,?_,?_⟩
    · dsimp only
      omega
    · dsimp only
      omega
    · rw [length_set]
      refine Quiet.set (hopen.quiet.mono ?_) rfl
      dsimp only
      omega
  · obtain ⟨hsta,hlast⟩ := record_halfOpen hhalf.state ho (s.now+d)
    have hpast := hhalf.past
    have hafter := hhalf.after
    refine ⟨hsta,?_,?_,?_⟩
    · dsimp only
      omega
    · exact hlast.le
    · rw [length_set]
      rcases hpro hhalf.state with hself | hlong
      · -- the probe itself has reported now
        have hquiet := Quiet.set
          (t:=⟨s.breaker.record (s.now+d) outcome,s.now+d,s.requests.set id ⟨admittedAt,some outcome⟩⟩)
          (hhalf.quiet.mono (show _ ≤ (s.breaker.record (s.now+d) outcome).lastFailTime+trip.breaker.timeout by omega)) rfl
        have hlen : (s.requests.set id ⟨admittedAt,some outcome⟩).length = s.requests.length := length_set
        rw [← hlen] at hquiet ⊢
        refine hquiet.snoc (r:=⟨admittedAt,some outcome⟩) ?_ (.inl rfl)
        have hidx : (s.requests.set id ⟨admittedAt,some outcome⟩).length-1 = id := by omega
        rw [hidx]
        exact getElem?_set_self (by omega)
      · refine Quiet.set ?_ rfl
        refine (hhalf.quiet.mono ?_).snoc hhalf.probe (.inr ?_)
        · dsimp only
          omega
        · dsimp only
          omega

lemma Tripped.single : Single trip s := by
  intro _ d lag hok
  rcases h.allows d lag with heq | ⟨b,-,-,-,hadmits⟩
  · simp [heq] at hok
  · exact hadmits

end

lemma Recovered.of_set {id : ℕ} (h : Recovered trip t)
    (ht : t.requests = s.requests.set id ⟨admittedAt,some outcome⟩)
    (hold : outcome = .success → id < trip.requests.length) : Recovered trip s := by
  obtain ⟨i,r,hi,hr,hs⟩ := h
  rw [ht,getElem?_set] at hr
  split at hr
  · next heq =>
    split at hr
    · cases hr
      have := hold (some.inj hs)
      omega
    · cases hr
  · exact ⟨i,r,hi,hr,hs⟩

end

/-- Either a request admitted since has reported success, or the breaker is held. -/
def Held (trip s : System) : Prop := Recovered trip s ∨ Tripped trip s

lemma held_step (hpos : 0 < trip.breaker.timeout) (h : Held trip s) (hl : Harmless trip s l) :
    Held trip (step s l) := by
  rcases h with hrec | htrip
  · exact .inl (recovered_step hrec)
  · obtain ⟨d,e⟩ := l
    cases e with
    | allow lag => exact .inr (htrip.allow lag)
    | report id outcome =>
      rcases hl with hrec | hl
      · exact .inl (recovered_step hrec)
      · by_cases hout : ∀ r, s.requests[id]? = some r → r.report ≠ none
        · rw [step_ignored hout]
          exact .inr (htrip.later (by omega))
        · obtain ⟨⟨admittedAt,report⟩,hid,rfl⟩ : ∃ r, s.requests[id]? = some r ∧ r.report = none := by simpa using hout
          have hguard := hl _ hid rfl
          by_cases ho : outcome = .success
          · rw [if_pos ho] at hguard
            refine .inl ⟨id,⟨admittedAt,some outcome⟩,hguard,?_,by rw [ho]⟩
            rw [step_report hid]
            exact List.getElem?_set_self (List.getElem?_eq_some_iff.mp hid).1
          · rw [if_neg ho] at hguard
            exact .inr (htrip.report ho hid hguard hpos)

lemma held_calls (calls : List (ℕ × ℕ)) (h : Held trip s) : Held trip (run step s (calls.map call)) := by
  induction calls generalizing s with
  | nil => exact h
  | cons c calls ih =>
    refine ih ?_
    rcases h with hrec | htrip
    · exact .inl (recovered_step hrec)
    · exact .inr (htrip.allow c.2)

lemma Held.probes (h : Held trip s) : Probes trip s := by
  intro calls
  rcases held_calls calls h with hrec | htrip
  · exact fun hno => absurd hrec hno
  · exact htrip.single

theorem old_success_spoils (hpos : 0 < trip.breaker.halfOpenTimeout) {d id : ℕ} (h : Tripped trip s)
    (hno : ¬Recovered trip s) (hid : s.requests[id]? = some ⟨admittedAt,none⟩) (hold : id < trip.requests.length) :
    ¬Probes trip (step s (d,.report id .success)) := by
  intro hpro
  have hsin := hpro [(0,0)]
  rw [step_report hid] at hsin
  set closed : System := ⟨s.breaker.record (s.now+d) .success,s.now+d,s.requests.set id ⟨admittedAt,some .success⟩⟩ with hclosed
  have hok : ∀ now later, (closed.breaker.allow now later) = (true,closed.breaker) := fun _ _ => allow_closed rfl
  have hnext : run step closed ([(0,0)].map call) =
      ⟨closed.breaker,closed.now+(0:ℕ)+(0:ℕ),closed.requests++[{ admittedAt := closed.now+(0:ℕ)+(0:ℕ) }]⟩ := by
    simp [call,step,hok]
  rw [hnext] at hsin
  have hrec : ¬Recovered trip
      ⟨closed.breaker,closed.now+(0:ℕ)+(0:ℕ),closed.requests++[{ admittedAt := closed.now+(0:ℕ)+(0:ℕ) }]⟩ := by
    rintro ⟨i,r,hi,hr,hs⟩
    rw [getElem?_append] at hr
    split at hr
    · exact hno (Recovered.of_set ⟨i,r,hi,hr,hs⟩ rfl fun _ => hold)
    · obtain rfl := mem_singleton.mp (mem_of_getElem? hr)
      cases hs
  obtain ⟨_,hquiet⟩ := hsin hrec 0 0 (by rw [hok])
  have hgro := h.grown
  rcases hquiet closed.requests.length { admittedAt := closed.now+(0:ℕ)+(0:ℕ) } (by simpa [hclosed] using hgro) (by simp)
    (by simp) with hrep | htime
  · cases hrep
  · dsimp only at htime
    omega

theorem foreign_report_spoils (hpos : 0 < trip.breaker.timeout) {d id : ℕ}
    (h : Tripped trip s) (hno : ¬Recovered trip s) (hid : s.requests[id]? = some ⟨admittedAt,none⟩) (ho : outcome ≠ .success)
    (hsta : s.breaker.state = .stateHalfOpen) (hother : id+1 ≠ s.requests.length)
    (hshort : s.now+d+trip.breaker.timeout < s.breaker.halfOpenSince+trip.breaker.halfOpenTimeout) :
    ¬Probes trip (step s (d,.report id outcome)) := by
  intro hpro
  have hsin := hpro []
  rw [step_report hid,map_nil,run_nil] at hsin
  obtain ⟨hopen,hlast⟩ := record_halfOpen hsta ho (s.now+d)
  have hhalf : HeldHalfOpen trip s := by
    rcases h.held with hheld | hheld
    · exact absurd (hheld.state.symm.trans hsta) (by simp)
    · exact hheld
  have hrec : ¬Recovered trip
      ⟨s.breaker.record (s.now+d) outcome,s.now+d,s.requests.set id ⟨admittedAt,some outcome⟩⟩ :=
    fun hrec => hno (hrec.of_set rfl fun hsuccess => absurd hsuccess ho)
  have htimeout : (s.breaker.record (s.now+d) outcome).timeout = trip.breaker.timeout :=
    (congrArg Config.timeout (record_toConfig _ _ _)).trans h.timeout
  have hok : ((s.breaker.record (s.now+d) outcome).allow (s.now+d+(trip.breaker.timeout.toNat : ℕ))
      (s.now+d+(trip.breaker.timeout.toNat : ℕ)+(0 : ℕ))).1 := by
    rw [allow_open hopen,if_pos]
    omega
  obtain ⟨_,hquiet⟩ := hsin hrec trip.breaker.timeout.toNat 0 hok
  have hgro := hhalf.grown
  rcases hquiet (s.requests.length-1) ⟨s.breaker.halfOpenSince,none⟩ (by omega) (by rw [length_set]; omega)
    ((getElem?_set_ne (by omega)).trans hhalf.probe) with hrep | htime
  · cases hrep
  · dsimp only at htime
    omega

lemma unharmless_spoils (hpos : 0 < trip.breaker.timeout) (hpos' : 0 < trip.breaker.halfOpenTimeout)
    (h : Held trip s) (hl : ¬Harmless trip s l) : ¬Probes trip (step s l) := by
  obtain ⟨d,e⟩ := l
  cases e with
  | allow lag => exact absurd trivial hl
  | report id outcome =>
    simp only [Harmless,not_or,not_forall] at hl
    obtain ⟨hno,⟨admittedAt,report⟩,hid,rfl,hguard⟩ := hl
    have htrip := h.resolve_left hno
    by_cases ho : outcome = .success
    · subst ho
      rw [if_pos rfl] at hguard
      exact old_success_spoils hpos' htrip hno hid (by omega)
    · rw [if_neg ho] at hguard
      obtain ⟨hsta,hother,hshort⟩ : s.breaker.state = .stateHalfOpen ∧ ¬id+1 = s.requests.length ∧
          ¬s.breaker.halfOpenSince+trip.breaker.halfOpenTimeout ≤ s.now+d+trip.breaker.timeout := by
        simpa [not_or] using hguard
      exact foreign_report_spoils hpos htrip hno hid ho hsta hother (by omega)

lemma tripped_of_trip (hclosed : s.breaker.state = .stateClosed)
    (hopen : (step s l).breaker.state = .stateOpen) : Tripped (step s l) (step s l) := by
  have hlast : (step s l).breaker.lastFailTime = (step s l).now := by
    obtain ⟨d,e⟩ := l
    cases e with
    | allow lag =>
      have hsta : (step s (d,.allow lag)).breaker = s.breaker := by simp [step,allow_closed hclosed]
      rw [hsta,hclosed] at hopen
      cases hopen
    | report id outcome =>
      simp only [step] at hopen ⊢
      split at hopen
      · exact record_trips hclosed hopen
      · rw [hclosed] at hopen
        cases hopen
  refine ⟨rfl,le_rfl,.inl ⟨hopen,hlast.ge,hlast.le,?_⟩⟩
  intro i r hi hlt
  omega

structure Config.Positive (cfg : Config) : Prop where
  threshold : 0 < cfg.threshold
  timeout : 0 < cfg.timeout
  halfOpenTimeout : 0 < cfg.halfOpenTimeout

lemma run_toConfig (hpos : cfg.Positive) : (run step (start cfg now) ls).breaker.toConfig = cfg := by
  refine run_stable (I := fun s : System => s.breaker.toConfig = cfg) (fun s l hs => (step_toConfig).trans hs) ls ?_
  simp [start,getOrCreate,not_le.mpr hpos.halfOpenTimeout]

theorem single_probes_iff (cfg : Config) (hpos : cfg.Positive) (now : ℤ) (before : List (ℕ × Event)) (l : ℕ × Event)
    (after : List (ℕ × Event)) (hclosed : (run step (start cfg now) before).breaker.state = .stateClosed)
    (hopen : (run step (start cfg now) (before++[l])).breaker.state = .stateOpen) :
    let trip := run step (start cfg now) (before++[l])
    Always step (Probes trip) trip after ↔ Along step (Harmless trip) trip after := by
  intro trip
  have hcfg : trip.breaker.toConfig = cfg := run_toConfig hpos
  have htimeout : 0 < trip.breaker.timeout := (congrArg Config.timeout hcfg).symm ▸ hpos.timeout
  have hhalf : 0 < trip.breaker.halfOpenTimeout := (congrArg Config.halfOpenTimeout hcfg).symm ▸ hpos.halfOpenTimeout
  have hlast : trip = step (run step (start cfg now) before) l := by
    rw [← run_nil step (step _ l),← run_cons,← run_append]
  have htrip : Tripped trip trip := by
    rw [hlast]
    refine tripped_of_trip hclosed ?_
    rw [← hlast]
    exact hopen
  exact always_iff_along_of_invariant (fun s l h hl => held_step htimeout h hl) (fun s h => h.probes)
    (fun s l h hl => unharmless_spoils htimeout hhalf h hl) after (.inr htrip)

def inFlight : List (ℕ × Event) :=
  List.replicate 7 (0,.allow 0)++[(0,.report 1 .failure),(0,.report 2 .failure),(0,.report 3 .failure),(0,.report 4 .failure)]

theorem late_reports_admit :
    let trip := run step (start defaultConfig 0) (inFlight++[(0,.report 5 .failure)])
    let closed := run step trip [(0,.report 0 .success)]
    let failed := run step trip [(30000000000,.allow 0),(1000000000,.report 6 .failure)]
    (run step (start defaultConfig 0) inFlight).breaker.state = .stateClosed ∧ trip.breaker.state = .stateOpen ∧
      closed.requests.length = trip.requests.length ∧ closed.now < trip.now+defaultConfig.timeout ∧
      (closed.breaker.allow closed.now closed.now).1 = true ∧
      failed.requests.drop trip.requests.length = [⟨30*second,none⟩] ∧
      (failed.breaker.allow (failed.now+30*second) (failed.now+30*second)).1 = true ∧
      failed.now+30*second < 30*second+defaultConfig.halfOpenTimeout := by
  decide

theorem probe_failure_harmless :
    let trip := run step (start defaultConfig 0) (inFlight++[(0,.report 5 .failure)])
    Always step (Probes trip) trip [(30000000000,.allow 0),(1000000000,.report 7 .failure)] := by
  refine (single_probes_iff defaultConfig ⟨by decide,by decide,by decide⟩ 0 inFlight (0,.report 5 .failure) _ (by decide)
    (by decide)).mpr ⟨trivial,.inr fun r _ _ => ?_,trivial⟩
  rw [if_neg (by simp)]
  exact fun _ => .inl (by decide)

end LurusHub.CircuitBreaker
