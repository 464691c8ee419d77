import LurusHub.PostConsume

/-! The platform hold of one relay request, from the pre-authorisation to the last call of the
handler. A hold leaves by a settle or a release, live, parked or counted as lost. -/
namespace LurusHub.RelayHold
open CreditPool QuotaLedger PreConsume PostConsume

structure Inputs where
  freeModel : Bool := false
  pre : PreEnv
  estimate : ℤ
  attempts : List (Option ℤ)
  post : PostEnv

def Inputs.served (r : Inputs) : Option ℤ := r.attempts.findSome? id

def finish (r : Inputs) (w : World) : World :=
  match r.served with
  | some quota => (postConsumeQuota r.post (quota-w.info.finalPreConsumedQuota) w.info.finalPreConsumedQuota w).1
  | none => returnPreConsumedQuota r.post w

/-- `Relay`: the deferred release is only registered after a successful pre-consume. -/
def relay (r : Inputs) (w : World) : World :=
  match (if r.freeModel then (w,none) else preConsumeQuota r.pre r.estimate w) with
  | (w,some _) => w
  | (w,none) => finish r w

def exitCount (id : ℤ) (w : World) : ℕ := w.platform.countP (PlatformEvent.exits id)

/-- Between two worlds the hold has left exactly once and is forgotten. -/
def Exited (id : ℤ) (w w' : World) : Prop := exitCount id w' = exitCount id w+1 ∧ w'.info.platformPreAuthID = 0
  deriving Decidable

def HoldGranted (r : Inputs) (w : World) (id : ℤ) : Prop :=
  r.freeModel = false ∧ w.info.platformPreAuthID ≤ 0 ∧ r.pre.billingUnifiedEnabled = true ∧
    w.info.identityAccountID > 0 ∧ r.estimate > 0 ∧ r.pre.preAuth = .granted id ∧ 0 < id
  deriving Decidable

def preAdvisory (env : PreEnv) : Bool := env.localLedgerAdvisory || env.tenantWalletAuthoritative

def postAdvisory (r : Inputs) (info : RelayInfo) : Bool :=
  r.post.localLedgerAdvisory || info.walletAuthoritative ||
    (!r.pre.localLedgerAdvisory && r.pre.tenantWalletAuthoritative)

def FreezeAccepts (env : PreEnv) (estimate : ℤ) (info : RelayInfo) (l : Ledger) : Prop :=
  ¬ TokenCapped env estimate info l ∧ (TokenWriteLost env info → preAdvisory env = true) ∧
    (¬ TokenWriteLost env info → info.userId ≠ 0 → preAdvisory env = false →
      ¬ UserDebitRefused env estimate info.userId l)

def NothingFrozen (env : PreEnv) (userQuota : ℤ) (info : RelayInfo) : Prop :=
  trusted env userQuota info = true ∨ TokenWriteLost env info ∨
    (info.userId ≠ 0 ∧ preAdvisory env = true ∧ UserWriteLost env)

def SettlementStops (r : Inputs) (info : RelayInfo) : Prop :=
  0 < info.userId ∧ r.post.batchUpdateEnabled = false ∧ r.post.userWriteFails = true ∧
    postAdvisory r info = false

/-- The balance read fails; or the request is admitted, served, and its settlement stops at the user
write or has neither a cost nor a freeze. -/
def HoldLeaks (r : Inputs) (w : World) : Prop :=
  readUserQuota r.pre w.info = none ∨
  ∃ userQuota quota, readUserQuota r.pre w.info = some userQuota ∧
    gates r.pre r.estimate userQuota w.info (preAdvisory r.pre) = none ∧
    (trusted r.pre userQuota w.info = true ∨ FreezeAccepts r.pre r.estimate w.info w.ledger) ∧
    r.served = some quota ∧
    (SettlementStops r w.info ∨ (quota ≤ 0 ∧ NothingFrozen r.pre userQuota w.info))

lemma holdLeaks_of_read (hread : readUserQuota r.pre w.info = some uq) :
    HoldLeaks r w ↔ gates r.pre r.estimate uq w.info (preAdvisory r.pre) = none ∧
      (trusted r.pre uq w.info ∨ FreezeAccepts r.pre r.estimate w.info w.ledger) ∧
      ∃ quota, r.served = some quota ∧
        (SettlementStops r w.info ∨ (quota ≤ 0 ∧ NothingFrozen r.pre uq w.info)) := by
  constructor
  · rintro (hnone | ⟨userQuota',quota,hread',hgat,hentry,hserved,hleak⟩)
    · simp [hread] at hnone
    · obtain rfl : uq = userQuota' := Option.some.inj (hread.symm.trans hread')
      exact ⟨hgat,hentry,quota,hserved,hleak⟩
  · rintro ⟨hgat,hentry,quota,hserved,hleak⟩
    exact .inr ⟨uq,quota,hread,hgat,hentry,hserved,hleak⟩

/-! Exits, call by call. -/

lemma abandonPreAuth_exited {id : ℤ} (d : Delivery) (hid : w.info.platformPreAuthID = id)
    (hpos : 0 < id) : Exited id w (abandonPreAuth d w) := by
  have hheld : ¬ id ≤ 0 := by omega
  simp [Exited,exitCount,abandonPreAuth,hid,hheld,PlatformEvent.exits]

lemma settlePlatformWallet_exited {id : ℤ} (hacc : w.info.identityAccountID > 0)
    (hid : w.info.platformPreAuthID = id) (hpos : 0 < id) (h : 0 < totalQuota ∨ 0 < pre) :
    Exited id w (settlePlatformWallet env totalQuota pre consistent advisory w) := by
  unfold settlePlatformWallet
  by_cases htotal : totalQuota > 0
  · rw [if_pos ⟨hacc,htotal⟩,if_pos (by omega)]
    split
    · exact abandonPreAuth_exited env.release hid hpos
    · simp [Exited,exitCount,settleOrPark,hid,PlatformEvent.exits]
  · rw [if_neg (by omega),if_pos (by omega)]
    exact abandonPreAuth_exited env.release hid hpos

lemma settlePlatformWallet_idle (htotal : totalQuota ≤ 0) (hpre : pre ≤ 0) :
    settlePlatformWallet env totalQuota pre consistent advisory w = w := by
  unfold settlePlatformWallet
  rw [if_neg (by omega),if_neg (by omega)]

section
variable {id quota pre : ℤ}

lemma postConsumeQuota_exited (hacc : w.info.identityAccountID > 0) (hid : w.info.platformPreAuthID = id)
    (hpos : 0 < id) (hgo : ¬ StopsAtUser env w.info) (h : 0 < quota+pre ∨ 0 < pre) :
    Exited id w (postConsumeQuota env quota pre w).1 := by
  rw [← userPhase_error_iff env w.info quota w.ledger] at hgo
  cases hphase : userPhase env w.info quota w.ledger with
  | error e => exact absurd ⟨e,hphase⟩ hgo
  | ok l =>
    simp only [postConsumeQuota,hphase]
    exact settlePlatformWallet_exited (w:={ w with ledger := _ }) hacc hid hpos h

lemma postConsumeQuota_held
    (h : StopsAtUser env w.info ∨ (quota+pre ≤ 0 ∧ pre ≤ 0)) :
    (postConsumeQuota env quota pre w).1.info = w.info ∧
    (postConsumeQuota env quota pre w).1.platform = w.platform := by
  rw [← userPhase_error_iff env w.info quota w.ledger] at h
  cases hphase : userPhase env w.info quota w.ledger with
  | error e => simp [postConsumeQuota,hphase]
  | ok l =>
    have hidle : quota+pre ≤ 0 ∧ pre ≤ 0 := by
      refine h.resolve_left ?_
      rintro ⟨e,he⟩
      rw [hphase] at he
      cases he
    simp [postConsumeQuota,hphase,settlePlatformWallet_idle hidle.1 hidle.2]

theorem returnPreConsumedQuota_exited (hid : w.info.platformPreAuthID = id) (hpos : 0 < id)
    (hfrozen : 0 ≤ w.info.finalPreConsumedQuota) : Exited id w (returnPreConsumedQuota env w) := by
  unfold returnPreConsumedQuota
  by_cases hzero : w.info.finalPreConsumedQuota = 0
  · simpa [hzero] using abandonPreAuth_exited env.release hid hpos
  · have hheld : (postConsumeQuota env (-w.info.finalPreConsumedQuota) 0 w).1.info = w.info ∧
        (postConsumeQuota env (-w.info.finalPreConsumedQuota) 0 w).1.platform = w.platform :=
      postConsumeQuota_held (.inr ⟨by omega,Int.le_refl 0⟩)
    obtain ⟨hinfo,hplat⟩ := hheld
    have hexit := abandonPreAuth_exited env.release ((congrArg RelayInfo.platformPreAuthID hinfo).trans hid) hpos
    simp only [hzero,ne_eq]
    simpa [Exited,exitCount,hplat] using hexit

lemma finish_exited_iff (r : Inputs) (hacc : w.info.identityAccountID > 0)
    (hid : w.info.platformPreAuthID = id) (hpos : 0 < id) (hfrozen : 0 ≤ w.info.finalPreConsumedQuota) :
    Exited id w (finish r w) ↔ ¬ ∃ quota, r.served = some quota ∧
      (StopsAtUser r.post w.info ∨ (quota ≤ 0 ∧ w.info.finalPreConsumedQuota = 0)) := by
  unfold finish
  cases hserved : r.served with
  | none => simpa using returnPreConsumedQuota_exited hid hpos hfrozen
  | some quota =>
    simp only [Option.some.injEq,exists_eq_left']
    by_cases hheld : StopsAtUser r.post w.info ∨ (quota ≤ 0 ∧ w.info.finalPreConsumedQuota = 0)
    · have hidle : StopsAtUser r.post w.info ∨ (quota-w.info.finalPreConsumedQuota+w.info.finalPreConsumedQuota ≤ 0 ∧
          w.info.finalPreConsumedQuota ≤ 0) := hheld.imp_right fun h => by omega
      have hsame := (postConsumeQuota_held hidle).2
      simp [Exited,exitCount,hsame,hheld]
    · refine iff_of_true (postConsumeQuota_exited hacc hid hpos (fun h => hheld (.inl h)) ?_) hheld
      omega

end

def heldInfo (env : PreEnv) (id : ℤ) (info : RelayInfo) : RelayInfo :=
  { info with
    platformPreAuthID := id
    platformGoverned := true
    walletAuthoritative := info.walletAuthoritative || (!env.localLedgerAdvisory && env.tenantWalletAuthoritative) }

section
variable {id : ℤ}

lemma HoldGranted.stage (h : HoldGranted r w id) : preAuthStage r.pre r.estimate w.info =
    .ok { w.info with platformPreAuthID := id, platformGoverned := true } := by
  obtain ⟨-,hfree,hon,hacc,hest,hrep,-⟩ := h
  have hno : ¬ w.info.platformPreAuthID > 0 := by omega
  simp [preAuthStage,hno,hon,hacc,hest,hrep]

lemma HoldGranted.staged (h : HoldGranted r w id) (hs : Staged r.pre r.estimate w info advisory) :
    info = heldInfo r.pre id w.info ∧ advisory = preAdvisory r.pre := by
  obtain ⟨i,hstage,hmode⟩ := hs
  rw [h.stage] at hstage
  cases hstage
  cases hloc : r.pre.localLedgerAdvisory <;> cases hten : r.pre.tenantWalletAuthoritative <;>
    simp [advisoryMode,hloc,hten] at hmode <;> obtain ⟨rfl,rfl⟩ := hmode <;>
    simp [heldInfo,preAdvisory,hloc,hten]

lemma stopsAtUser_held (id : ℤ) (h : held.userId = info.userId ∧ held.platformGoverned ∧
      held.walletAuthoritative = (heldInfo r.pre id info).walletAuthoritative) :
    StopsAtUser r.post held ↔ SettlementStops r info := by
  simp [StopsAtUser,SettlementStops,shadowLedger,postAdvisory,heldInfo,h.1,h.2.1,h.2.2,Bool.or_assoc]

lemma freeze_accepted (hpos : 0 < est)
    (h : FreezeResult env est info (preAdvisory env) l (l',.ok frozen)) :
    FreezeAccepts env est info l ∧ 0 ≤ frozen ∧
      (frozen = 0 ↔ TokenWriteLost env info ∨ (info.userId ≠ 0 ∧ preAdvisory env ∧ UserWriteLost env)) := by
  have hne : est ≠ 0 := by omega
  cases h with
  | tokenLost hlost hadv =>
    have hunc : ¬ TokenCapped env est info l := by
      intro hcap
      have hfails := hlost.2.1
      rw [hcap.2.2.1] at hfails
      cases hfails
    exact ⟨⟨hunc,fun _ => hadv,fun h => absurd hlost h⟩,by omega,iff_of_true rfl (.inl hlost)⟩
  | provisioned hfrozen huser =>
    exact ⟨⟨hfrozen.uncapped,fun h => absurd h hfrozen.written,fun _ h => absurd huser h⟩,by omega,
      by simp [hne,hfrozen.written,huser]⟩
  | userLost hfrozen huser hadv hlost =>
    exact ⟨⟨hfrozen.uncapped,fun h => absurd h hfrozen.written,fun _ _ h => by simp [hadv] at h⟩,by omega,
      iff_of_true rfl (.inr ⟨huser,hadv,hlost⟩)⟩
  | shadowed hfrozen huser hadv hkept =>
    exact ⟨⟨hfrozen.uncapped,fun h => absurd h hfrozen.written,fun _ _ h => by simp [hadv] at h⟩,by omega,
      by simp [hne,hfrozen.written,hkept]⟩
  | debited hfrozen huser hadv hpaid =>
    exact ⟨⟨hfrozen.uncapped,fun h => absurd h hfrozen.written,fun _ _ _ => hpaid⟩,by omega,
      by simp [hne,hfrozen.written,hadv]⟩

lemma freeze_refused (h : FreezeResult env est info (preAdvisory env) l (l',.error e)) :
    ¬ FreezeAccepts env est info l := by
  rintro ⟨hunc,hadvi,hpaid⟩
  cases h with
  | capped _ hcap => exact hunc hcap
  | tokenFailed _ hlost hadv =>
    have hon := hadvi hlost
    rw [hadv] at hon
    cases hon
  | userRefused _ hfrozen huser hadv href => exact hpaid hfrozen.written huser hadv href

end

lemma finish_held_iff {id userQuota frozen : ℤ} (hg : HoldGranted r w id)
    (hinfo : w'.info = { heldInfo r.pre id w.info with userQuota, finalPreConsumedQuota := frozen })
    (hplat : w'.platform = w.platform) (hread : readUserQuota r.pre w.info = some userQuota)
    (hgat : gates r.pre r.estimate userQuota w.info (preAdvisory r.pre) = none)
    (hfre : trusted r.pre userQuota w.info ∨ FreezeAccepts r.pre r.estimate w.info w.ledger)
    (hfrozen : 0 ≤ frozen) (hzero : frozen = 0 ↔ NothingFrozen r.pre userQuota w.info) :
    Exited id w (finish r w') ↔ ¬ HoldLeaks r w := by
  have hexit : Exited id w (finish r w') ↔ Exited id w' (finish r w') := by simp [Exited,exitCount,hplat]
  have hstops : StopsAtUser r.post w'.info ↔ SettlementStops r w.info :=
    stopsAtUser_held id (by simp [hinfo,heldInfo])
  have hfinish := finish_exited_iff (w:=w') r (by simp [hinfo,heldInfo,hg.2.2.2.1]) (by simp [hinfo,heldInfo])
    hg.2.2.2.2.2.2 (by simpa [hinfo] using hfrozen)
  have hleaks : HoldLeaks r w ↔ ∃ quota, r.served = some quota ∧
      (SettlementStops r w.info ∨ (quota ≤ 0 ∧ NothingFrozen r.pre userQuota w.info)) := by
    rw [holdLeaks_of_read hread,and_iff_right hgat,and_iff_right hfre]
  rw [hexit,hfinish,hleaks,hstops,hinfo]
  simp only [hzero]

theorem relay_hold_exits_iff (r : Inputs) (w : World) (id : ℤ) (hg : HoldGranted r w id) :
    Exited id w (relay r w) ↔ ¬ HoldLeaks r w := by
  have hadm := preConsumeQuota_admission r.pre r.estimate w
  have hpos := hg.2.2.2.2.2.2
  simp only [relay,hg.1]
  generalize preConsumeQuota r.pre r.estimate w = result at hadm ⊢
  cases hadm with
  | refused h =>
    rw [hg.stage] at h
    cases h
  | unreadable hs hread =>
    obtain ⟨rfl,-⟩ := hg.staged hs
    refine iff_of_false ?_ fun h => h (.inl hread)
    simp [Exited,exitCount]
  | gated hs hread hgat =>
    obtain ⟨rfl,rfl⟩ := hg.staged hs
    refine iff_of_true (abandonPreAuth_exited r.pre.release rfl hpos) ?_
    rw [holdLeaks_of_read hread]
    rintro ⟨hgat',-⟩
    have hboth := hgat.symm.trans hgat'
    cases hboth
  | trusted hpass hquota =>
    obtain ⟨rfl,rfl⟩ := hg.staged hpass.staged
    have hest := hg.2.2.2.2.1
    have htru := hquota.resolve_right fun h => by omega
    exact finish_held_iff hg rfl rfl hpass.read hpass.gates (.inl htru.1) (Int.le_of_eq htru.2.symm)
      (iff_of_true htru.2 (.inl htru.1))
  | @frozen info advisory userQuota frozen ledger hpass htru hest hfre =>
    obtain ⟨rfl,rfl⟩ := hg.staged hpass.staged
    have hres := freeze_result r.pre userQuota (heldInfo r.pre id w.info) (preAdvisory r.pre) w.ledger hest
    rw [hfre] at hres
    obtain ⟨haccepts,hfrozen,hzero⟩ := freeze_accepted hest hres
    have htru : trusted r.pre userQuota w.info = false := htru
    refine finish_held_iff hg rfl rfl hpass.read hpass.gates (.inr haccepts) hfrozen (hzero.trans ?_)
    simp only [NothingFrozen,htru,Bool.false_eq_true,false_or]
    exact Iff.rfl
  | @unfrozen info advisory userQuota ledger e hpass htru hest hfre =>
    obtain ⟨rfl,rfl⟩ := hg.staged hpass.staged
    have hres := freeze_result r.pre userQuota (heldInfo r.pre id w.info) (preAdvisory r.pre) w.ledger hest
    rw [hfre] at hres
    refine iff_of_true (abandonPreAuth_exited r.pre.release rfl hpos) ?_
    have hread := hpass.read
    rw [holdLeaks_of_read hread]
    rintro ⟨-,htrus | haccepts,-⟩
    · have hboth := htru.symm.trans htrus
      cases hboth
    · exact freeze_refused hres haccepts

def linked : World where
  ledger := {
    users := fun id => if id = 1 then some 1000 else none
    tokens := fun id => if id = 7 then some ⟨100,0,"acme"⟩ else none
    userBatch := fun _ => 0
    tokenBatch := fun _ => 0
    pools := .empty }
  info := { userId := 1, tokenId := 7, isPlayground := false, tokenUnlimited := false, identityAccountID := 3 }
  platform := []

def heldRun (userQuota : Option ℤ) (trustQuota quota : ℤ) (userWriteFails : Bool) : Inputs where
  pre := { billingUnifiedEnabled := true, preAuth := .granted 9, userQuota, trustQuota, tokenQuota := 1000 }
  estimate := 50
  attempts := [none,some quota]
  post := { userWriteFails }

theorem relay_hold_exits_iff_settled : HoldGranted (heldRun (some 1000) 5000000 40 false) linked 9 ∧
    Exited 9 linked (relay (heldRun (some 1000) 5000000 40 false) linked) := by
  have hg : HoldGranted (heldRun (some 1000) 5000000 40 false) linked 9 := by decide
  refine ⟨hg,(relay_hold_exits_iff _ _ _ hg).2 ?_⟩
  rintro (hnone | ⟨userQuota,quota,-,-,-,hserved,hstops | hfree⟩)
  · cases hnone
  · cases hstops.2.2.1
  · obtain rfl : 40 = quota := Option.some.inj hserved
    exact absurd hfree.1 (by decide)

def LeavesHold (r : Inputs) : Prop :=
  HoldGranted r linked 9 ∧ (relay r linked).platform = [] ∧ (relay r linked).info.platformPreAuthID = 9 ∧
    ¬ Exited 9 linked (relay r linked)
  deriving Decidable

theorem hold_left_behind :
    LeavesHold (heldRun none 5000000 40 false) ∧ LeavesHold (heldRun (some 1000) 5000000 40 true) ∧
      LeavesHold (heldRun (some 1000) 500 0 false) := by decide

end LurusHub.RelayHold
