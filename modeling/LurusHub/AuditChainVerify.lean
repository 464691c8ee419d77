import LurusHub.AuditChainWrites

/-! The verifier against what was done to the table. A page finds in each row what the whole table
says of it, so the calls that follow the cursor count the rows that were altered and those whose
predecessor was deleted. -/
namespace LurusHub.AuditChain
open CursorPages Transition ChainVerifyResult ChainVerifyParams Function

/-! Counting. -/

section
variable (sha256 : List Char → String) (rows : List AuditEvent)

def hashBroken (e : AuditEvent) : Bool := e.rowHash ≠ "" && computeAuditRowHash sha256 e ≠ e.rowHash

def linkBroken (e : AuditEvent) : Bool := e.rowHash ≠ "" && (priorChainedHash rows e.tenantID e.id).any (e.prevHash ≠ ·)

def ChainVerifyResult.counts (r : ChainVerifyResult) : ℕ × ℕ × ℕ × ℕ := (r.checked,r.legacyRows,r.hashBreaks,r.linkBreaks)

def tally (es : List AuditEvent) : ℕ × ℕ × ℕ × ℕ :=
  (es.countP (·.rowHash ≠ ""),es.countP (·.rowHash = ""),es.countP (hashBroken sha256),es.countP (linkBroken rows))

@[simp] lemma tally_nil : tally sha256 rows [] = 0 := rfl

lemma tally_append (es fs : List AuditEvent) : tally sha256 rows (es++fs) = tally sha256 rows es+tally sha256 rows fs := by
  simp [tally]

lemma tally_cons (e : AuditEvent) (es : List AuditEvent) :
    tally sha256 rows (e::es) = tally sha256 rows [e]+tally sha256 rows es :=
  tally_append sha256 rows [e] es

lemma tally_flatMap {α : Type} (as : List α) (f : α → List AuditEvent) :
    tally sha256 rows (as.flatMap f) = (as.map fun a => tally sha256 rows (f a)).sum := by
  induction as with
  | nil => rfl
  | cons a as ih => rw [List.flatMap_cons,tally_append,ih,List.map_cons,List.sum_cons]

end

/-! One pass. -/

section
variable {s : Scan} {e : AuditEvent}

structure Scan.Knows (rows : List AuditEvent) (s : Scan) (m : ℕ) : Prop where
  last : ∀ t h, s.lastHash t = some h → priorChainedHash rows t m = some h
  asks : ∀ t, s.lastHash t = none → s.seeded t = false

lemma Scan.Knows.want (hs : s.Knows rows e.id) : s.want rows e = priorChainedHash rows e.tenantID e.id := by
  rw [Scan.want]
  split
  · next h hlast => exact (hs.last _ _ hlast).symm
  · next hlast => simp [hs.asks _ hlast]

lemma Scan.Knows.advance (hs : s.Knows rows m) (hgap : ∀ q ∈ rows, q.id < e.id → q.id < m)
    (hm : m ≤ e.id) : s.Knows rows e.id := by
  refine ⟨fun t h hlast => ?_,hs.asks⟩
  rw [← hs.last t h hlast,priorChainedHash]
  congr 1
  exact lastBelow_congr fun q hq => and_congr_right fun _ => ⟨hgap q hq,fun hlt => hlt.trans_le hm⟩

lemma priorChainedHash_succ (hrows : Ordered AuditEvent.id rows) (he : e ∈ rows) :
    priorChainedHash rows t (e.id+1) = if ofChain t e then some e.rowHash else priorChainedHash rows t e.id := by
  rw [priorChainedHash,priorChained,lastBelow_succ hrows he]
  split
  · rfl
  · rfl

lemma Scan.Knows.scanRow (hs : s.Knows rows e.id) (hrows : Ordered AuditEvent.id rows) (he : e ∈ rows) :
    (scanRow sha256 rows false s e).Knows rows (e.id+1) := by
  by_cases hhash : e.rowHash = ""
  · have hof : ∀ t, ofChain t e = false := fun t => by simp [ofChain,hhash]
    rw [AuditChain.scanRow,if_pos hhash]
    refine ⟨fun t h hlast => ?_,hs.asks⟩
    rw [priorChainedHash_succ hrows he,hof]
    exact hs.last t h hlast
  · rw [AuditChain.scanRow,if_neg hhash]
    refine ⟨fun t h hlast => ?_,fun t hnone => ?_⟩
    · have hlast : update s.lastHash e.tenantID (some e.rowHash) t = some h := hlast
      rw [priorChainedHash_succ hrows he]
      by_cases ht : t = e.tenantID
      · subst ht
        simpa [ofChain,hhash] using hlast
      · rw [update_of_ne ht] at hlast
        simpa [ofChain,Ne.symm ht] using hs.last t h hlast
    · have hnone : update s.lastHash e.tenantID (some e.rowHash) t = none := hnone
      have ht : t ≠ e.tenantID := by
        rintro rfl
        simp at hnone
      rw [update_of_ne ht] at hnone
      have hsee : (if s.lastHash e.tenantID = none then update s.seeded e.tenantID true else s.seeded) t = s.seeded t := by
        split
        · exact update_of_ne ht _ _
        · rfl
      exact hsee.trans (hs.asks t hnone)

lemma checkHash_counts (hash : List Char → String) (s : Scan) (hhash : e.rowHash ≠ "") :
    (checkHash hash s e).res.counts = s.res.counts+(1,0,(hashBroken hash e).toNat,0) := by
  by_cases hbroken : computeAuditRowHash hash e = e.rowHash
  · simp [checkHash,hashBroken,counts,hbroken]
  · simp [checkHash,hashBroken,counts,hbroken,hhash]

lemma checkLink_counts (hs : s.Knows rows e.id) (hhash : e.rowHash ≠ "") :
    (checkLink rows s e).res.counts = s.res.counts+(0,0,0,(linkBroken rows e).toNat) := by
  rw [checkLink,hs.want]
  cases hprior : priorChainedHash rows e.tenantID e.id with
  | none => simp [linkBroken,hprior]
  | some want =>
    by_cases hlink : e.prevHash = want
    · simp [linkBroken,hprior,hlink]
    · simp [linkBroken,hprior,hlink,hhash,counts]

lemma scanRow_counts (hs : s.Knows rows e.id) :
    (scanRow sha256 rows false s e).res.counts = s.res.counts+tally sha256 rows [e] := by
  by_cases hhash : e.rowHash = ""
  · simp [scanRow,tally,hashBroken,linkBroken,hhash,counts]
  · have hlink := checkLink_counts hs hhash
    have hche := checkHash_counts sha256 (checkLink rows s e) hhash
    rw [hlink] at hche
    rw [scanRow,if_neg hhash,if_neg (by simp),hche,add_assoc]
    congr 1
    simp [tally,hhash,Bool.toNat]

lemma scan_counts (hrows : Ordered AuditEvent.id rows) (hes : Consecutive AuditEvent.id rows m es)
    (hs : s.Knows rows m) :
    (es.foldl (scanRow sha256 rows false) s).res.counts = s.res.counts+tally sha256 rows es := by
  induction es generalizing s m with
  | nil => simp
  | cons e es ih =>
    obtain ⟨he,hgap,hm,hes⟩ := hes
    have hkno := hs.advance hgap hm
    rw [List.foldl_cons,ih hes (hkno.scanRow hrows he),scanRow_counts hkno,tally_cons sha256 rows e es,add_assoc]

lemma scanRow_nextCursor (timeFiltered : Bool) :
    (scanRow sha256 rows timeFiltered s e).res.nextCursor = s.res.nextCursor := by
  have hlink : (checkLink rows s e).res.nextCursor = s.res.nextCursor := by
    rw [checkLink]
    split
    · split
      · rfl
      · rfl
    · rfl
  have hhash : ∀ s : Scan, (checkHash sha256 s e).res.nextCursor = s.res.nextCursor := by
    intro s
    rw [checkHash]
    split
    · rfl
    · rfl
  rw [scanRow]
  split
  · rfl
  · rw [hhash]
    split
    · rfl
    · exact hlink

lemma verifyAuditChain_nextCursor : (verifyAuditChain sha256 rows p).nextCursor = p.cursor rows := by
  have hfold : ∀ (es : List AuditEvent) (s : Scan),
      (es.foldl (scanRow sha256 rows p.timeFiltered) s).res.nextCursor = s.res.nextCursor := by
    intro es
    induction es with
    | nil => exact fun _ => rfl
    | cons e es ih => exact fun s => (ih _).trans (scanRow_nextCursor _)
  exact hfold _ _

end

/-! The calls that follow the cursor. -/

section
variable (sha256 : List Char → String) (rows : List AuditEvent) (limits : ℕ → ℤ) {p : ChainVerifyParams}

structure ChainVerifyParams.Whole (p : ChainVerifyParams) : Prop where
  tenant : p.tenantID = ""
  start : p.startTime = 0
  stop : p.endTime = 0

lemma ChainVerifyParams.effectiveLimit_pos (p : ChainVerifyParams) : 0 < p.effectiveLimit := by
  simp only [effectiveLimit,chainVerifyDefaultLimit,chainVerifyMaxLimit]
  split <;> omega

variable {rows}

lemma ChainVerifyParams.Whole.selected (hp : p.Whole) : p.selected rows = after AuditEvent.id rows p.afterID := by
  simp [ChainVerifyParams.selected,after,hp.tenant,hp.start,hp.stop]

lemma ChainVerifyParams.Whole.more (hp : p.Whole) :
    p.effectiveLimit < (p.fetched rows).length ↔ p.effectiveLimit < (after AuditEvent.id rows p.afterID).length := by
  rw [fetched,hp.selected,List.length_take]
  omega

lemma ChainVerifyParams.Whole.window (hp : p.Whole) : p.window rows = page AuditEvent.id rows p.afterID p.effectiveLimit := by
  rw [ChainVerifyParams.window,page]
  split
  · rw [fetched,hp.selected,List.take_take,Nat.min_eq_left (Nat.le_succ _)]
  · next hno =>
    have hlen := not_lt.mp fun h => hno (hp.more.mpr h)
    rw [fetched,hp.selected,List.take_of_length_le (hlen.trans (Nat.le_succ _)),List.take_of_length_le hlen]

lemma ChainVerifyParams.Whole.cursor (hp : p.Whole) : p.cursor rows = next AuditEvent.id rows p.afterID p.effectiveLimit := by
  rw [ChainVerifyParams.cursor,next,hp.window]
  simp only [hp.more]

variable (rows)

lemma follow_whole (fuel n c : ℕ) : ∀ p ∈ follow sha256 rows limits fuel n c, p.Whole := by
  induction fuel generalizing n c with
  | zero => exact nofun
  | succ fuel ih =>
    intro p hp
    rcases List.mem_cons.mp hp with rfl | hp
    · exact ⟨rfl,rfl,rfl⟩
    · split at hp
      · cases hp
      · exact ih _ _ p hp

lemma follow_eq (fuel n c : ℕ) :
    (follow sha256 rows limits fuel n c).map (fun p => (p.afterID,p.effectiveLimit)) =
      CursorPages.follow AuditEvent.id rows (fun n => ChainVerifyParams.effectiveLimit { limit := limits n }) fuel n c := by
  induction fuel generalizing n c with
  | zero => rfl
  | succ fuel ih =>
    have hcur : (verifyAuditChain sha256 rows { afterID := c, limit := limits n }).nextCursor =
        next AuditEvent.id rows c (effectiveLimit { limit := limits n }) := by
      rw [verifyAuditChain_nextCursor]
      exact ChainVerifyParams.Whole.cursor ⟨rfl,rfl,rfl⟩
    rw [follow,CursorPages.follow,hcur,List.map_cons]
    split
    · rfl
    · rw [ih]
      rfl

theorem follow_counts (hrows : Ordered AuditEvent.id rows) (hpos : ∀ r ∈ rows, 0 < r.id) (hfuel : rows.length < fuel) :
    let calls := follow sha256 rows limits fuel 0 0
    calls.flatMap (·.window rows) = rows ∧
      (∃ p, calls.getLast? = some p ∧ (verifyAuditChain sha256 rows p).nextCursor = 0) ∧
      (calls.map fun p => (verifyAuditChain sha256 rows p).counts).sum = tally sha256 rows rows := by
  intro calls
  have hwho := follow_whole sha256 rows limits fuel 0 0
  have hcalls := follow_eq sha256 rows limits fuel 0 0
  obtain ⟨hpag,q,hlast,hnext⟩ := follow_pages hrows hpos (fun n => effectiveLimit_pos { limit := limits n })
    fuel 0 0 (by rwa [after_zero hpos])
  rw [← hcalls] at hpag hlast
  have hwindows : calls.flatMap (·.window rows) = rows := by
    rw [List.flatMap_map,after_zero hpos] at hpag
    exact (List.flatMap_congr fun p hp => (hwho p hp).window).trans hpag
  refine ⟨hwindows,?_,?_⟩
  · rw [List.getLast?_map] at hlast
    obtain ⟨p,hp,rfl⟩ := Option.map_eq_some_iff.mp hlast
    refine ⟨p,hp,?_⟩
    rw [verifyAuditChain_nextCursor,(hwho p (List.mem_of_getLast? hp)).cursor]
    exact hnext
  · have hcou : ∀ p ∈ calls, (verifyAuditChain sha256 rows p).counts = tally sha256 rows (p.window rows) := by
      intro p hp
      have hp := hwho p hp
      have htime : p.timeFiltered = false := by simp [timeFiltered,hp.start,hp.stop]
      have hcon := page_consecutive hrows p.afterID p.effectiveLimit
      rw [← hp.window] at hcon
      have hkno : Scan.Knows rows { res := { linkChecksSkipped := false, nextCursor := p.cursor rows } } (p.afterID+1) :=
        ⟨fun _ _ hlast => absurd hlast.symm (Option.some_ne_none _),fun _ _ => rfl⟩
      rw [verifyAuditChain,htime,scan_counts hrows hcon hkno]
      exact zero_add _
    rw [List.map_congr_left hcou,← tally_flatMap,hwindows]

end

/-! Two chained rows of one tenant have different hashes. -/

lemma priorChained_eq_some (hrows : Ordered AuditEvent.id rows) : priorChained rows t i = some p ↔
      (p ∈ rows ∧ ofChain t p ∧ p.id < i) ∧ ∀ x ∈ rows, ofChain t x → x.id < i → x.id ≤ p.id :=
  lastBelow_eq_some hrows

lemma eq_of_priorChained_eq (hrows : Ordered AuditEvent.id rows) (hr : r ∈ rows) (hq : q ∈ rows)
    (hrt : ofChain t r) (hqt : ofChain t q) (h : priorChained rows t r.id = priorChained rows t q.id) : r = q := by
  have hle : ∀ {a b : AuditEvent}, a ∈ rows → ofChain t a →
    priorChained rows t a.id = priorChained rows t b.id → b.id ≤ a.id := by
    intro a b ha hat hab
    by_contra hlt
    rw [not_le] at hlt
    cases hprior : priorChained rows t b.id with
    | none => exact absurd (lastBelow_eq_none.mp hprior a ha hat) (not_le.mpr hlt)
    | some p =>
      have hbelow := ((priorChained_eq_some hrows).mp hprior).2 a ha hat hlt
      have habove := ((priorChained_eq_some hrows).mp (hab.trans hprior)).1.2.2
      omega
  exact hrows.inj hr hq (Nat.le_antisymm (hle hq hqt h.symm) (hle hr hrt h))

lemma Linked.rowHash_inj (h : Linked sha rows) (hinj : Function.Injective sha) (hr : r ∈ rows) (hq : q ∈ rows)
    (hchained : r.rowHash ≠ "") (heq : r.rowHash = q.rowHash) : r = q := by
  induction hi : r.id using Nat.strong_induction_on generalizing r q with
  | _ i ih =>
    subst hi
    have hqch : q.rowHash ≠ "" := heq ▸ hchained
    have hcan : canonical r = canonical q := by
      have := h.hash q hq hqch
      rw [← heq,h.hash r hr hchained] at this
      exact hinj this
    obtain ⟨htenant,_,hprev⟩ := canonical_inj hcan
    rw [h.link r hr hchained,h.link q hq hqch,← htenant] at hprev
    refine eq_of_priorChained_eq h.ordered hr hq (ofChain_iff.mpr ⟨rfl,hchained⟩) (ofChain_iff.mpr ⟨htenant.symm,hqch⟩) ?_
    rw [priorChainedHash,priorChainedHash] at hprev
    cases hrp : priorChained rows r.tenantID r.id with
    | none =>
      cases hqp : priorChained rows r.tenantID q.id with
      | none => rfl
      | some b =>
        have hb := (ofChain_iff.mp ((priorChained_eq_some h.ordered).mp hqp).1.2.1).2
        rw [hrp,hqp] at hprev
        exact absurd hprev.symm hb
    | some a =>
      obtain ⟨hmem,hof,hlt⟩ := ((priorChained_eq_some h.ordered).mp hrp).1
      have ha := (ofChain_iff.mp hof).2
      cases hqp : priorChained rows r.tenantID q.id with
      | none =>
        rw [hrp,hqp] at hprev
        exact absurd hprev ha
      | some b =>
        rw [hrp,hqp] at hprev
        exact congrArg some (ih a.id hlt hmem ((priorChained_eq_some h.ordered).mp hqp).1.1 ha hprev rfl)

/-! Tampering. -/

structure Tampering where
  row : AuditEvent → Option AuditEvent
  keeps : ∀ r r', row r = some r' → r'.id = r.id ∧ r'.tenantID = r.tenantID ∧ r'.prevHash = r.prevHash ∧ r'.rowHash = r.rowHash

namespace Tampering

def applied (t : Tampering) (rows : List AuditEvent) : List AuditEvent := rows.filterMap t.row

def altered (t : Tampering) (r : AuditEvent) : Bool := r.rowHash ≠ "" && (t.row r).any fun r' => content r' ≠ content r

/-- A chained row that remains, its direct predecessor deleted and some earlier row of its chain not. -/
def cutOff (t : Tampering) (rows : List AuditEvent) (r : AuditEvent) : Bool :=
  r.rowHash ≠ "" && (t.row r).isSome && (priorChained rows r.tenantID r.id).any (fun p => (t.row p).isNone) &&
    rows.any fun q => ofChain r.tenantID q && decide (q.id < r.id) && (t.row q).isSome

variable {t : Tampering}

lemma mem_applied : r' ∈ t.applied rows ↔ ∃ r ∈ rows, t.row r = some r' := by simp [applied]

lemma applied_ordered (h : Ordered AuditEvent.id rows) : Ordered AuditEvent.id (t.applied rows) := by
  refine List.Pairwise.filterMap t.row (fun a b hab a' ha b' hb => ?_) h
  rw [(t.keeps a a' ha).1,(t.keeps b b' hb).1]
  exact hab

lemma applied_positive (h : ∀ r ∈ rows, 0 < r.id) : ∀ r' ∈ t.applied rows, 0 < r'.id := by
  intro r' hr'
  obtain ⟨r,hr,hrow⟩ := mem_applied.mp hr'
  rw [(t.keeps r r' hrow).1]
  exact h r hr

lemma ofChain_row (hrow : t.row r = some r') (tid : String) : ofChain tid r' = ofChain tid r := by
  obtain ⟨_,htenant,_,hhash⟩ := t.keeps r r' hrow
  simp [ofChain,htenant,hhash]

lemma hashBroken_row (h : Linked sha rows) (hinj : Function.Injective sha) (hr : r ∈ rows) (hrow : t.row r = some r') :
    hashBroken sha r' = t.altered r := by
  obtain ⟨_,htenant,hprev,hhash⟩ := t.keeps r r' hrow
  by_cases hchained : r.rowHash = ""
  · simp [hashBroken,altered,hhash,hchained]
  · have hsame : computeAuditRowHash sha r' = r.rowHash ↔ content r' = content r := by
      rw [h.hash r hr hchained]
      exact ⟨fun heq => (canonical_inj (hinj heq)).2.1,fun heq => congrArg sha (canonical_congr htenant heq hprev)⟩
    simp [hashBroken,altered,hhash,hrow,hsame]

theorem linkBroken_row (h : Linked sha256 rows) (hinj : Function.Injective sha256) (hr : r ∈ rows) (hrow : t.row r = some r') :
    linkBroken (t.applied rows) r' = t.cutOff rows r := by
  obtain ⟨hid,htenant,hprev,hhash⟩ := t.keeps r r' hrow
  have happ := applied_ordered (t:=t) h.ordered
  by_cases hchained : r.rowHash = ""
  · simp [linkBroken,cutOff,hhash,hchained]
  rw [linkBroken,cutOff,priorChainedHash,hid,htenant,hprev,hhash]
  cases hleft : priorChained (t.applied rows) r.tenantID r.id with
  | none =>
    have hgone : rows.any (fun q => ofChain r.tenantID q && decide (q.id < r.id) && (t.row q).isSome) = false := by
      refine List.any_eq_false.mpr fun q hq hall => ?_
      simp only [Bool.and_eq_true,decide_eq_true_eq,Option.isSome_iff_exists] at hall
      obtain ⟨⟨hof,hlt⟩,q',hq'⟩ := hall
      have := lastBelow_eq_none.mp hleft q' (mem_applied.mpr ⟨q,hq,hq'⟩) (by rwa [ofChain_row hq'])
      rw [(t.keeps q q' hq').1] at this
      omega
    simp [hgone]
  | some q' =>
    obtain ⟨⟨hmem,hof,hlt⟩,hmax⟩ := (priorChained_eq_some happ).mp hleft
    obtain ⟨q,hq,hqrow⟩ := mem_applied.mp hmem
    obtain ⟨hqid,_,_,hqha⟩ := t.keeps q q' hqrow
    rw [ofChain_row hqrow] at hof
    rw [hqid] at hlt
    have hear : rows.any (fun q => ofChain r.tenantID q && decide (q.id < r.id) && (t.row q).isSome) :=
      List.any_eq_true.mpr ⟨q,hq,by simp [hof,hlt,hqrow]⟩
    cases hprior : priorChained rows r.tenantID r.id with
    | none => exact absurd (lastBelow_eq_none.mp hprior q hq hof) (not_le.mpr hlt)
    | some p =>
      obtain ⟨⟨hp,hpof,hplt⟩,hpmax⟩ := (priorChained_eq_some h.ordered).mp hprior
      have hlink : r.prevHash = p.rowHash := by
        rw [h.link r hr hchained,priorChainedHash,hprior]
        rfl
      have hsame : q'.rowHash = p.rowHash ↔ (t.row p).isSome := by
        rw [hqha]
        constructor
        · intro heq
          rw [← h.rowHash_inj hinj hq hp (ofChain_iff.mp hof).2 heq,hqrow]
          rfl
        · intro hsome
          obtain ⟨p',hprow⟩ := Option.isSome_iff_exists.mp hsome
          have hle := hmax p' (mem_applied.mpr ⟨p,hp,hprow⟩) (by rwa [ofChain_row hprow]) (by rwa [(t.keeps p p' hprow).1])
          rw [(t.keeps p p' hprow).1,hqid] at hle
          rw [h.ordered.inj hq hp (Nat.le_antisymm (hpmax q hq hof hlt) hle)]
      rw [hear,hlink]
      cases hprow : t.row p with
      | none => simp [hsame,hrow,eq_comm (a:=p.rowHash)]
      | some p' => simp [hprow,hsame,eq_comm (a:=p.rowHash)]

lemma tally_applied (h : Linked sha256 rows) (hinj : Function.Injective sha256) :
    tally sha256 (t.applied rows) (t.applied rows) =
      (rows.countP fun r => r.rowHash ≠ "" && (t.row r).isSome,rows.countP fun r => r.rowHash = "" && (t.row r).isSome,
        rows.countP t.altered,rows.countP (t.cutOff rows)) := by
  have hcount : ∀ (f g : AuditEvent → Bool), (∀ r ∈ rows, ∀ r', t.row r = some r' → f r' = g r) →
    (∀ r ∈ rows, t.row r = none → g r = false) →
      (t.applied rows).countP f = rows.countP g := by
    intro f g hsome hnone
    rw [applied,List.countP_filterMap]
    refine List.countP_congr fun r hr => ?_
    cases hrow : t.row r with
    | none => simp [hnone r hr hrow]
    | some r' => simp [hsome r hr r' hrow]
  have hremains : ∀ f : String → Bool, (t.applied rows).countP (f ·.rowHash) = rows.countP fun r =>
    f r.rowHash && (t.row r).isSome := by
    intro f
    refine hcount _ _ (fun r _ r' hrow => ?_) fun r _ hrow => by simp [hrow]
    simp [hrow,(t.keeps r r' hrow).2.2.2]
  rw [tally,hremains fun h => h ≠ "",hremains fun h => h = "",
    hcount _ _ (fun r hr r' hrow => hashBroken_row h hinj hr hrow) fun r _ hrow => by simp [altered,hrow],
    hcount _ _ (fun r hr r' hrow => linkBroken_row h hinj hr hrow) fun r _ hrow => by simp [cutOff,hrow]]

end Tampering

lemma sum_counts (reports : List ChainVerifyResult) : (reports.map ChainVerifyResult.counts).sum =
      ((reports.map (·.checked)).sum,(reports.map (·.legacyRows)).sum,
      (reports.map (·.hashBreaks)).sum,(reports.map (·.linkBreaks)).sum) := by
  induction reports with
  | nil => rfl
  | cons r rs ih => simp [ih,counts]

/-- The calls that follow the cursor see every row once and find every break. -/
theorem verifier_exact (sha256 : List Char → String) (hinj : Function.Injective sha256)
    (hne : ∀ x, sha256 x ≠ "") (acts : List Act)
    (t : Tampering) (limits : ℕ → ℤ) (fuel : ℕ) (hfuel : (t.applied (run (step sha256) {} acts).rows).length < fuel) :
    let rows := (run (step sha256) {} acts).rows
    let left := t.applied rows
    let calls := follow sha256 left limits fuel 0 0
    let reports := calls.map (verifyAuditChain sha256 left)
    (calls.flatMap (·.window left) = left ∧ (left.map AuditEvent.id).Nodup) ∧
      (∃ report, reports.getLast? = some report ∧ report.nextCursor = 0) ∧
      (reports.map (·.hashBreaks)).sum = rows.countP t.altered ∧
      (reports.map (·.linkBreaks)).sum = rows.countP (t.cutOff rows) ∧
      (reports.map (·.checked)).sum = (rows.countP fun r => r.rowHash ≠ "" && (t.row r).isSome) ∧
      (reports.map (·.legacyRows)).sum = rows.countP fun r => r.rowHash = "" && (t.row r).isSome := by
  intro rows left calls reports
  have hlinked : Linked sha256 rows := linked_run hne acts
  have hordered : Ordered AuditEvent.id left := Tampering.applied_ordered hlinked.ordered
  obtain ⟨hwindows,⟨p,hlast,hnext⟩,hcou⟩ :=
    follow_counts sha256 left limits hordered (Tampering.applied_positive hlinked.positive) hfuel
  have hsum : (reports.map counts).sum = _ := (congrArg List.sum (List.map_map ..)).trans hcou
  rw [sum_counts,Tampering.tally_applied hlinked hinj] at hsum
  simp only [Prod.mk.injEq] at hsum
  obtain ⟨hche,hleg,hhash,hlink⟩ := hsum
  refine ⟨⟨hwindows,?_⟩,⟨_,?_,hnext⟩,hhash,hlink,hche,hleg⟩
  · exact List.pairwise_map.mpr (hordered.imp fun hlt => hlt.ne)
  · rw [List.getLast?_map,hlast]
    rfl

theorem verifier_exact_cut :
    let sha256 : List Char → String := fun l => String.ofList ('h'::l)
    let event := NewEvent.detached "t" 1 ⟨"u",1,"a","r",1,""⟩
    let insert := [Act.chainLink 0 event,.insert 0,.commit 0]
    let t : Tampering := ⟨fun r => if r.id = 2 then none else some r,fun r r' h => by
      split at h
      · cases h
      · cases h
        exact ⟨rfl,rfl,rfl,rfl⟩⟩
    let left := t.applied (run (step sha256) {} (insert++insert++insert)).rows
    let reports := (follow sha256 left (fun _ => 1) 3 0 0).map (verifyAuditChain sha256 left)
    (reports.map (·.hashBreaks)).sum = 0 ∧ (reports.map (·.linkBreaks)).sum = 1 := by
  intro sha256 event insert t left reports
  have hinj : Function.Injective sha256 := fun a b h => (List.cons.inj (String.ofList_injective h)).2
  have hne : ∀ x, sha256 x ≠ "" := fun x h => by simpa [sha256] using congrArg String.toList h
  have hexa := verifier_exact sha256 hinj hne (insert++insert++insert) t (fun _ => 1) 3 (by decide)
  exact ⟨hexa.2.2.1.trans (by decide +kernel),hexa.2.2.2.1.trans (by decide +kernel)⟩

end LurusHub.AuditChain
