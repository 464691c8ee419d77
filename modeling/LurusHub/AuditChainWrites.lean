import LurusHub.AuditChain
import Mathlib

/-! What the insert transactions leave in the table: the lock on the chain head orders the chained
inserts of a tenant, so the chained rows of each tenant are one chain in the order of their ids. -/
namespace LurusHub.AuditChain
open CursorPages Transition KeyedTable List

/-! The hash tells covered fields apart. -/

lemma field_inj {ss ts : List String} (hlen : ss.length = ts.length) (h : ss.flatMap field = ts.flatMap field) : ss = ts := by
  have hheader : Function.Injective fun n : ℕ => n.repr.toList := fun m n h => Nat.repr_inj.mp (String.toList_inj.mp h)
  have hsep : ∀ n : ℕ, ':' ∉ n.repr.toList := by
    intro n hmem
    rw [Nat.repr_eq_ofList_toDigits,String.toList_ofList] at hmem
    exact absurd (Nat.isDigit_of_mem_toDigits (by decide) (by decide) hmem) (by decide)
  have hmap : (ss.map String.toList).flatMap (LengthPrefix.field Char.utf8Size (fun n => n.repr.toList) ':' '\n') =
      (ts.map String.toList).flatMap (LengthPrefix.field Char.utf8Size (fun n => n.repr.toList) ':' '\n') := by
    rw [flatMap_map,flatMap_map]
    exact h
  have heq := LengthPrefix.fields_inj Char.utf8Size_pos hheader hsep (by simpa using hlen) hmap
  exact map_injective_iff.mpr (fun _ _ h => String.toList_inj.mp h) heq

structure Content where
  timestamp : ℤ
  actorType : String
  actorID : ℤ
  (action resource : String)
  resourceID : ℤ
  requestID : String
  retentionUntil : ℤ
  deriving DecidableEq

def content (e : AuditEvent) : Content :=
  ⟨e.timestamp,e.actorType,e.actorID,e.action,e.resource,e.resourceID,e.requestID,e.retentionUntil⟩

lemma covered_inj (h : covered e = covered f) :
    e.tenantID = f.tenantID ∧ content e = content f ∧ e.prevHash = f.prevHash := by
  simp only [covered,cons.injEq,Int.repr_inj] at h
  obtain ⟨htenant,hts,htype,hactor,hact,hres,hrid,hreq,hret,hprev,_⟩ := h
  refine ⟨htenant,?_,hprev⟩
  simp only [content,hts,htype,hactor,hact,hres,hrid,hreq,hret]

lemma canonical_inj (h : canonical e = canonical f) :
    e.tenantID = f.tenantID ∧ content e = content f ∧ e.prevHash = f.prevHash := by
  have hfie := append_cancel_left h
  exact covered_inj (field_inj rfl hfie)

lemma canonical_congr (htenant : e.tenantID = f.tenantID) (hcon : content e = content f)
    (hprev : e.prevHash = f.prevHash) : canonical e = canonical f := by
  simp only [content,Content.mk.injEq] at hcon
  obtain ⟨hts,htype,hactor,hact,hres,hrid,hreq,hret⟩ := hcon
  have hcovered : covered e = covered f := by
    simp only [covered,htenant,hts,htype,hactor,hact,hres,hrid,hreq,hret,hprev]
  unfold canonical
  rw [hcovered]

section
variable (sha256 : List Char → String)

structure Linked (rows : List AuditEvent) : Prop where
  ordered : Ordered AuditEvent.id rows
  positive : ∀ r ∈ rows, 0 < r.id
  hash : ∀ r ∈ rows, r.rowHash ≠ "" → r.rowHash = computeAuditRowHash sha256 r
  link : ∀ r ∈ rows, r.rowHash ≠ "" → r.prevHash = (priorChainedHash rows r.tenantID r.id).getD ""

structure Tx.Sound (db : Db) (tx : Tx) : Prop where
  linked : tx.locked = true → tx.event.prevHash = db.heads tx.event.tenantID ∧
    tx.event.rowHash = computeAuditRowHash sha256 tx.event
  unchained : tx.locked = false → tx.event.rowHash = ""
  fresh : tx.inserted = true → 0 < tx.event.id ∧ tx.event.id < db.nextID ∧ ∀ r ∈ db.rows, r.id ≠ tx.event.id
  last : tx.inserted = true → tx.locked = true → ∀ r ∈ db.rows, ofChain tx.event.tenantID r = true → r.id < tx.event.id

structure Sound (db : Db) : Prop where
  linked : Linked sha256 db.rows
  below : ∀ r ∈ db.rows, r.id < db.nextID
  positive : 0 < db.nextID
  head : ∀ t, db.heads t = (priorChainedHash db.rows t db.nextID).getD ""
  tx : ∀ tx ∈ db.txs.rows, tx.Sound sha256 db
  lock : ∀ tx ∈ db.txs.rows, ∀ tx' ∈ db.txs.rows, tx.locked = true → tx'.locked = true →
    tx.event.tenantID = tx'.event.tenantID → tx.name = tx'.name
  ids : ∀ tx ∈ db.txs.rows, ∀ tx' ∈ db.txs.rows, tx.inserted = true → tx'.inserted = true → tx.event.id = tx'.event.id →
    tx.name = tx'.name

end

section
variable {db : Db}

lemma ofChain_iff : ofChain t e ↔ e.tenantID = t ∧ e.rowHash ≠ "" := by
  simp [ofChain]

lemma priorChained_next (hbelow : ∀ r ∈ db.rows, r.id < db.nextID) :
    priorChained db.rows t (db.nextID+1) = priorChained db.rows t db.nextID :=
  lastBelow_congr fun q hq => and_congr_right fun _ => by
    have := hbelow q hq
    omega

variable {tx : Tx}

lemma Tx.Sound.withTxs (h : tx.Sound sha256 db) : tx.Sound sha256 { db with txs := txs } :=
  ⟨h.linked,h.unchained,h.fresh,h.last⟩

lemma Tx.Sound.locked_of_chained (h : tx.Sound sha256 db) (hhash : tx.event.rowHash ≠ "") : tx.locked := by
  by_contra hno
  exact hhash (h.unchained (by simpa using hno))

lemma Sound.drop (h : Sound sha256 db) (name : ℕ) : Sound sha256 { db with txs := db.txs.delete name } := by
  have hsub : ∀ tx ∈ (db.txs.delete name).rows, tx ∈ db.txs.rows := fun tx htx => (mem_delete.mp htx).1
  exact ⟨h.linked,h.below,h.positive,h.head,fun tx htx => (h.tx tx (hsub tx htx)).withTxs,
    fun tx htx tx' htx' => h.lock tx (hsub tx htx) tx' (hsub tx' htx'),
    fun tx htx tx' htx' => h.ids tx (hsub tx htx) tx' (hsub tx' htx')⟩

lemma Sound.begin (h : Sound sha256 db) (htx : tx.Sound sha256 db) (hnew : tx.inserted = false)
    (hlock : tx.locked → db.holder tx.event.tenantID = none) :
    Sound sha256 { db with txs := db.txs.put tx } := by
  have hfree : tx.locked → ∀ tx' ∈ db.txs.rows, tx'.locked → tx'.event.tenantID ≠ tx.event.tenantID := by
    intro hl tx' htx' hl' heq
    have := find?_eq_none.mp (hlock hl) tx' htx'
    simp [hl',heq] at this
  refine ⟨h.linked,h.below,h.positive,h.head,?_,?_,?_⟩
  · intro q hq
    rcases mem_put.mp hq with rfl | ⟨hq,_⟩
    · exact htx.withTxs
    · exact (h.tx q hq).withTxs
  · intro q hq q' hq' hl hl' heq
    rcases mem_put.mp hq with rfl | ⟨hold,_⟩ <;> rcases mem_put.mp hq' with rfl | ⟨hold',_⟩
    · rfl
    · exact absurd heq.symm (hfree hl q' hold' hl')
    · exact absurd heq (hfree hl' q hold hl)
    · exact h.lock q hold q' hold' hl hl' heq
  · intro q hq q' hq' hi hi' heq
    rcases mem_put.mp hq with rfl | ⟨hold,_⟩ <;> rcases mem_put.mp hq' with rfl | ⟨hold',_⟩
    · rfl
    · rw [hnew] at hi
      cases hi
    · rw [hnew] at hi'
      cases hi'
    · exact h.ids q hold q' hold' hi hi' heq

lemma NewEvent.rowHash (e : NewEvent) : e.event.rowHash = "" := by cases e <;> rfl

lemma Sound.insert (h : Sound sha256 db) (htx : tx ∈ db.txs.rows) :
    Sound sha256 ⟨db.rows,db.heads,db.nextID+1,
      db.txs.put { tx with event := { tx.event with id := db.nextID }, inserted := true }⟩ := by
  have hold : ∀ q ∈ db.txs.rows, q.inserted → q.event.id < db.nextID := fun q hq hi => ((h.tx q hq).fresh hi).2.1
  refine ⟨h.linked,fun r hr => (h.below r hr).trans (Nat.lt_succ_self _),Nat.succ_pos _,?_,?_,?_,?_⟩
  · intro t
    rw [priorChainedHash,priorChained_next h.below]
    exact h.head t
  · intro q hq
    rcases mem_put.mp hq with rfl | ⟨hq,_⟩
    · refine ⟨(h.tx tx htx).linked,(h.tx tx htx).unchained,fun _ => ⟨h.positive,Nat.lt_succ_self _,?_⟩,?_⟩
      · exact fun r hr => (h.below r hr).ne
      · exact fun _ _ r hr _ => h.below r hr
    · refine ⟨(h.tx q hq).linked,(h.tx q hq).unchained,fun hi => ?_,(h.tx q hq).last⟩
      obtain ⟨hpos,hlt,hne⟩ := (h.tx q hq).fresh hi
      exact ⟨hpos,hlt.trans (Nat.lt_succ_self _),hne⟩
  · intro q hq q' hq' hl hl' heq
    rcases mem_put.mp hq with rfl | ⟨hq,_⟩ <;> rcases mem_put.mp hq' with rfl | ⟨hq',_⟩
    · rfl
    · exact h.lock tx htx q' hq' hl hl' heq
    · exact h.lock q hq tx htx hl hl' heq
    · exact h.lock q hq q' hq' hl hl' heq
  · intro q hq q' hq' hi hi' heq
    rcases mem_put.mp hq with rfl | ⟨hq,_⟩ <;> rcases mem_put.mp hq' with rfl | ⟨hq',_⟩
    · rfl
    · exact absurd heq (hold q' hq' hi').ne'
    · exact absurd heq (hold q hq hi).ne
    · exact h.ids q hq q' hq' hi hi' heq

/-! Committing a row. -/

abbrev placed (rows : List AuditEvent) (e : AuditEvent) : List AuditEvent := rows.orderedInsert (fun a b => a.id ≤ b.id) e

lemma mem_placed {rows : List AuditEvent} : r ∈ placed rows e ↔ r = e ∨ r ∈ rows := mem_orderedInsert _

theorem Linked.placed {rows : List AuditEvent} (h : Linked sha rows) (hpos : 0 < e.id) (hnew : ∀ r ∈ rows, r.id ≠ e.id)
    (hcha : e.rowHash ≠ "" → e.rowHash = computeAuditRowHash sha e ∧
      e.prevHash = (priorChainedHash rows e.tenantID e.id).getD "" ∧
      ∀ r ∈ rows, ofChain e.tenantID r → r.id < e.id) : Linked sha (placed rows e) := by
  have hskip : ∀ t b, (ofChain t e → b ≤ e.id) → priorChainedHash (AuditChain.placed rows e) t b = priorChainedHash rows t b := by
    intro t b hb
    rw [priorChainedHash,priorChained,lastBelow_insert_of_not hb]
    rfl
  refine ⟨orderedInsert_ordered h.ordered hnew,?_,?_,?_⟩
  · intro r hr
    rcases mem_placed.mp hr with rfl | hr
    · exact hpos
    · exact h.positive r hr
  · intro r hr hhash
    rcases mem_placed.mp hr with rfl | hr
    · exact (hcha hhash).1
    · exact h.hash r hr hhash
  · intro r hr hhash
    rcases mem_placed.mp hr with rfl | hr
    · rw [hskip _ _ fun _ => le_rfl]
      exact (hcha hhash).2.1
    · rw [hskip]
      · exact h.link r hr hhash
      · intro hof
        obtain ⟨htenant,he⟩ := ofChain_iff.mp hof
        exact ((hcha he).2.2 r hr (ofChain_iff.mpr ⟨htenant.symm,hhash⟩)).le

lemma priorChained_of_last (hbelow : ∀ r ∈ db.rows, r.id < db.nextID)
    (hlast : ∀ r ∈ db.rows, ofChain t r → r.id < i) : priorChained db.rows t i = priorChained db.rows t db.nextID :=
  lastBelow_congr fun q hq => and_congr_right fun hp => iff_of_true (hlast q hq hp) (hbelow q hq)

def headsAfter (db : Db) (tx : Tx) : String → String :=
  if tx.locked then Function.update db.heads tx.event.tenantID tx.event.rowHash else db.heads

lemma headsAfter_of_not (hother : ¬(tx.locked ∧ t = tx.event.tenantID)) :
    headsAfter db tx t = db.heads t := by
  unfold headsAfter
  split
  · next hlock => exact Function.update_of_ne (fun ht => hother ⟨hlock,ht⟩) _ _
  · rfl

lemma Sound.commit_linked (h : Sound sha256 db) (htx : tx ∈ db.txs.rows) (hins : tx.inserted) :
    Linked sha256 (placed db.rows tx.event) := by
  have hs := h.tx tx htx
  obtain ⟨hpos,-,hnew⟩ := hs.fresh hins
  refine h.linked.placed hpos hnew fun hhash => ?_
  have hlock := hs.locked_of_chained hhash
  obtain ⟨hprev,hrow⟩ := hs.linked hlock
  refine ⟨hrow,?_,hs.last hins hlock⟩
  rw [hprev,h.head,priorChainedHash,priorChainedHash,priorChained_of_last h.below (hs.last hins hlock)]

lemma Sound.commit_head (h : Sound sha256 db) (hne : ∀ x, sha256 x ≠ "") (htx : tx ∈ db.txs.rows)
    (hins : tx.inserted) (t : String) :
    headsAfter db tx t = (priorChainedHash (placed db.rows tx.event) t db.nextID).getD "" := by
  have hs := h.tx tx htx
  obtain ⟨-,hlt,hnew⟩ := hs.fresh hins
  by_cases hself : tx.locked ∧ t = tx.event.tenantID
  · obtain ⟨hlock,rfl⟩ := hself
    have hchained : ofChain tx.event.tenantID tx.event := by
      refine ofChain_iff.mpr ⟨rfl,?_⟩
      rw [(hs.linked hlock).2]
      exact hne _
    rw [priorChainedHash,priorChained,lastBelow_insert_last h.linked.ordered hnew hchained hlt (hs.last hins hlock)]
    simp [headsAfter,hlock]
  · have hother : ofChain t tx.event → db.nextID ≤ tx.event.id := by
      intro hof
      obtain ⟨htenant,hhash⟩ := ofChain_iff.mp hof
      exact absurd ⟨hs.locked_of_chained hhash,htenant.symm⟩ hself
    rw [priorChainedHash,priorChained,lastBelow_insert_of_not hother,headsAfter_of_not hself]
    exact h.head t

theorem Sound.commit_tx (h : Sound sha256 db) (htx : tx ∈ db.txs.rows) (hins : tx.inserted)
    (hq : q ∈ db.txs.rows) (hname : q.name ≠ tx.name) :
    q.Sound sha256 ⟨placed db.rows tx.event,headsAfter db tx,db.nextID,txs⟩ := by
  have hs := h.tx tx htx
  have hq' := h.tx q hq
  refine ⟨fun hl => ?_,hq'.unchained,fun hi => ?_,fun hi hl r hr hof => ?_⟩
  · obtain ⟨hprev,hrow⟩ := hq'.linked hl
    have hhead : headsAfter db tx q.event.tenantID = db.heads q.event.tenantID :=
      headsAfter_of_not fun hsame => hname (h.lock q hq tx htx hl hsame.1 hsame.2)
    exact ⟨hprev.trans hhead.symm,hrow⟩
  · obtain ⟨hqpos,hqlt,hqnew⟩ := hq'.fresh hi
    refine ⟨hqpos,hqlt,fun r hr => ?_⟩
    rcases mem_placed.mp hr with rfl | hr
    · exact fun heq => hname (h.ids q hq tx htx hi hins heq.symm)
    · exact hqnew r hr
  · rcases mem_placed.mp hr with rfl | hr
    · obtain ⟨htenant,hhash⟩ := ofChain_iff.mp hof
      exact absurd (h.lock q hq tx htx hl (hs.locked_of_chained hhash) htenant.symm) hname
    · exact hq'.last hi hl r hr hof

lemma Sound.commit (h : Sound sha256 db) (hne : ∀ x, sha256 x ≠ "") (htx : tx ∈ db.txs.rows)
    (hins : tx.inserted) :
    Sound sha256 ⟨placed db.rows tx.event,headsAfter db tx,db.nextID,db.txs.delete tx.name⟩ := by
  have hsub : ∀ q ∈ (db.txs.delete tx.name).rows, q ∈ db.txs.rows ∧ q.name ≠ tx.name :=
    fun q hq => mem_delete.mp hq
  refine ⟨h.commit_linked htx hins,?_,h.positive,h.commit_head hne htx hins,?_,?_,?_⟩
  · intro r hr
    rcases mem_placed.mp hr with rfl | hr
    · exact ((h.tx tx htx).fresh hins).2.1
    · exact h.below r hr
  · exact fun q hq => h.commit_tx htx hins (hsub q hq).1 (hsub q hq).2
  · exact fun q hq q' hq' => h.lock q (hsub q hq).1 q' (hsub q' hq').1
  · exact fun q hq q' hq' => h.ids q (hsub q hq).1 q' (hsub q' hq').1

lemma sound_step (hne : ∀ x, sha256 x ≠ "") (h : Sound sha256 db) (act : Act) : Sound sha256 (step sha256 db act) := by
  cases act with
  | chainLink name e =>
    simp only [step]
    split
    · next hfree =>
      refine h.begin ⟨fun _ => ⟨rfl,rfl⟩,?_,?_,?_⟩ rfl fun _ => hfree.2
      · simp
      · simp
      · simp
    · exact h
  | fallback name e =>
    simp only [step]
    split
    · refine h.begin ⟨?_,fun _ => e.rowHash,?_,?_⟩ rfl ?_
      · simp
      · simp
      · simp
      · simp
    · exact h
  | insert name =>
    simp only [step]
    split
    · exact h
    · next tx htx =>
      split
      · exact h
      · exact h.insert (mem_of_get? htx)
  | commit name =>
    simp only [step]
    split
    · exact h
    · next tx htx =>
      split
      · exact h
      · next hins =>
        obtain rfl := key_of_get? htx
        exact h.commit hne (mem_of_get? htx) (by simpa using hins)
  | rollback name => exact h.drop name

theorem linked_run (hne : ∀ x, sha256 x ≠ "") (acts : List Act) : Linked sha256 (run (step sha256) {} acts).rows := by
  refine (run_stable (I := Sound sha256) (fun s act hs => sound_step hne hs act) acts ?_).linked
  refine ⟨⟨List.Pairwise.nil,?_,?_,?_⟩,?_,Nat.one_pos,fun _ => rfl,?_,?_,?_⟩
  all_goals intro _ hmem; cases hmem

end

end LurusHub.AuditChain
