import LurusHub.PricingWrites
import Mathlib.Data.List.Nodup

/-! No committed price is lost to an update that merged on the row it had locked. Prices are lost by
writers that merge on the process memory: `ApplyPriceProposals`, and an update that found no row to
lock; of these the guard says that the copy has every stored price they do not set. -/
namespace LurusHub.PricingWrites

open LockedRow World Int64 Function List Transition

def setBy (sets : List (String × ℚ)) : Ratios := merge sets fun _ => none

lemma merge_apply : merge sets base m = (setBy sets m).or (base m) := by
  suffices h : ∀ start : Ratios, merge sets (fun k => (start k).or (base k)) m = (merge sets start m).or (base m) by
    simpa [setBy] using h fun _ => none
  induction sets with
  | nil => exact fun _ => rfl
  | cons p sets ih =>
    intro start
    have hput : update (fun k => (start k).or (base k)) p.1 (some p.2) =
        fun k => (update start p.1 (some p.2) k).or (base k) := by
      funext k
      by_cases hk : k = p.1
      · subst hk
        simp
      · simp [update_of_ne hk]
    simp only [merge,foldl_cons,hput]
    exact ih _

def lastSet (entries : List Entry) (m : String) : Option ℚ :=
  entries.foldl (fun last e => (setBy e.sets m).or last) none

lemma lastSet_append : lastSet (entries++[e]) m = (setBy e.sets m).or (lastSet entries m) := by
  simp [lastSet]

namespace World

def stored (s : World) (m : String) : Option ℚ :=
  match s.modelRatio.committed with
  | some (.ratios f) => f m
  | _ => none

def version (s : World) : Int64 := (s.pricingVersion.committed.map VersionText.parsed).getD 0

def Wrote (s : World) (c : ℕ) : Prop := c ∈ s.history.map Entry.call

def versions (s : World) : ℕ := (s.history.filter Entry.versioned).length

end World

/-- The calls that report success, in the order in which their writes took effect. -/
def Call.succeeded : Call → Bool
  | .finished ok => ok
  | _ => false

def successes (s : World) : List Entry := s.history.filter fun e => (s.calls e.call).succeeded

def Settled (s : World) : Prop := ∀ c, s.calls c = .idle ∨ ∃ ok, s.calls c = .finished ok

/-- The copy that a call merged on has every stored price that the call does not set. -/
def CopyKeeps (s : World) (sets : List (String × ℚ)) (base : Ratios) : Prop :=
  ∀ m v, s.stored m = some v → setBy sets m = none → base m = some v

def Guard (s : World) : Label → Prop
  | .advance c =>
    match s.calls c with
    | .update u (.won d _) => d.ratios ≠ none → d.found = false → CopyKeeps s (batchRatios u.items) d.base
    | .update _ (.expecting _ _) => s.version ≠ Int64.maxValue
    | .apply _ (.ready sets base) => CopyKeeps s sets base
    | _ => True
  | .fail c =>
    match s.calls c with
    | .apply _ .refreshed => False
    | _ => True
  | _ => True

/-- The version of the row that a draft holds: its write, or the baseline it has locked. -/
def Draft.holds (d : Draft) : Option (Option RatioText) :=
  match d.ratios with
  | some m => some (some (.ratios m))
  | none => if d.found then some (some (.ratios d.base)) else none

structure DraftInv (s : World) (c : ℕ) (u : UpdateCall) (d : Draft) : Prop where
  held : s.modelRatio.pending c = d.holds
  base : d.found = true → s.modelRatio.committed = some (.ratios d.base)
  merged : ∀ m, d.ratios = some m → m = merge (batchRatios u.items) d.base

def CallInv (s : World) (c : ℕ) : Call → Prop
  | .idle => s.modelRatio.pending c = none ∧ s.pricingVersion.view c = s.pricingVersion.committed ∧ ¬s.Wrote c
  | .update _ (.begun _) =>
    s.modelRatio.pending c = none ∧ s.pricingVersion.view c = s.pricingVersion.committed ∧ ¬s.Wrote c
  | .update u (.baseline d) =>
    DraftInv s c u d ∧ s.pricingVersion.view c = s.pricingVersion.committed ∧ ¬s.Wrote c ∧ d.ratios = none
  | .update u (.persisted d) =>
    DraftInv s c u d ∧ s.pricingVersion.view c = s.pricingVersion.committed ∧ ¬s.Wrote c ∧
      (d.ratios = none → batchRatios u.items = [])
  | .update u (.expecting d _) =>
    DraftInv s c u d ∧ s.pricingVersion.view c = s.pricingVersion.committed ∧ ¬s.Wrote c ∧
      (d.ratios = none → batchRatios u.items = [])
  | .update u (.won d v) =>
    DraftInv s c u d ∧ (s.pricingVersion.pending c = some (some (.number v)) ∧ v.toInt = s.version.toInt+1) ∧
      ¬s.Wrote c ∧ (d.ratios = none → batchRatios u.items = [])
  | .update _ (.committed _) => s.Wrote c
  | .apply _ (.saved _) => s.Wrote c
  | .apply _ .refreshed => s.Wrote c
  | .apply _ _ => ¬s.Wrote c
  | .finished ok => s.Wrote c ↔ ok = true

structure Inv (s₀ s : World) : Prop where
  calls : ∀ c, CallInv s c (s.calls c)
  once : (s.history.map Entry.call).Nodup
  prices : ∀ m v, lastSet s.history m = some v → s.stored m = some v
  version : s.version.toInt = s₀.version.toInt+s.versions

section
variable {s₀ s s' : World} {c c' : ℕ}

variable {d : Draft}

lemma Draft.holds_of_found (h : d.found) : d.holds ≠ none := by
  unfold Draft.holds
  cases d.ratios <;> simp [h]

lemma DraftInv.frame (h : DraftInv s c' u d) (hne : c' ≠ c)
    (hratio : Frame c s.modelRatio s'.modelRatio) : DraftInv s' c' u d where
  held := (hratio.pending c' hne).trans h.held
  base := fun hfound => (hratio.committed c' hne (h.held ▸ Draft.holds_of_found hfound)).trans (h.base hfound)
  merged := h.merged

lemma view_frame (hne : c' ≠ c) (h : Frame c r r') (hview : r.view c' = r.committed) :
    r'.view c' = r'.committed := by
  have hpending := h.pending c' hne
  cases hp : r.pending c' with
  | none => exact view_of_pending_none (hpending.trans hp)
  | some p =>
    have hcom := h.committed c' hne (by simp [hp])
    simpa [view,hpending,hcom] using hview

lemma CallInv.frame (h : CallInv s c' x) (hne : c' ≠ c) (hratio : Frame c s.modelRatio s'.modelRatio)
    (hversion : Frame c s.pricingVersion s'.pricingVersion) (hwro : s'.Wrote c' ↔ s.Wrote c') : CallInv s' c' x := by
  have hview := fun hv => view_frame hne hversion hv
  cases x with
  | idle => exact ⟨(hratio.pending c' hne).trans h.1,hview h.2.1,fun hw => h.2.2 (hwro.mp hw)⟩
  | finished ok => exact hwro.trans h
  | apply a phase => cases phase <;> simpa only [CallInv,hwro] using h
  | update u phase =>
    cases phase with
    | begun fallback => exact ⟨(hratio.pending c' hne).trans h.1,hview h.2.1,fun hw => h.2.2 (hwro.mp hw)⟩
    | baseline d | persisted d | expecting d expected =>
        exact ⟨h.1.frame hne hratio,hview h.2.1,fun hw => h.2.2.1 (hwro.mp hw),h.2.2.2⟩
    | won d v =>
      obtain ⟨hd,⟨hp,hv⟩,hw,hn⟩ := h
      have hcom := hversion.committed c' hne (by simp [hp])
      have heq : s'.version = s.version := by rw [version,hcom,version]
      exact ⟨hd.frame hne hratio,⟨(hversion.pending c' hne).trans hp,heq ▸ hv⟩,fun hw' => hw (hwro.mp hw'),hn⟩
    | committed ratios => exact hwro.mpr h

lemma stored_congr (h : s'.modelRatio.committed = s.modelRatio.committed) : s'.stored m = s.stored m := by
  rw [stored,h,stored]

lemma version_congr (h : s'.pricingVersion.committed = s.pricingVersion.committed) : s'.version = s.version := by
  rw [version,h,version]

lemma Inv.calls_step (h : Inv s₀ s) (hcalls : s'.calls = Function.update s.calls c x)
    (hratio : Frame c s.modelRatio s'.modelRatio) (hversion : Frame c s.pricingVersion s'.pricingVersion)
    (hwro : ∀ c', c' ≠ c → (s'.Wrote c' ↔ s.Wrote c')) (hx : CallInv s' c x) : ∀ c', CallInv s' c' (s'.calls c') := by
  intro c'
  rw [hcalls]
  by_cases hc : c' = c
  · subst hc
    rwa [update_self]
  · rw [update_of_ne hc]
    exact (h.calls c').frame hc hratio hversion (hwro c' hc)

lemma Inv.quiet (h : Inv s₀ s) (hcalls : s'.calls = Function.update s.calls c x)
    (hratio : Frame c s.modelRatio s'.modelRatio) (hversion : Frame c s.pricingVersion s'.pricingVersion)
    (hsto : s'.modelRatio.committed = s.modelRatio.committed)
    (hnumber : s'.pricingVersion.committed = s.pricingVersion.committed) (hhis : s'.history = s.history)
    (hx : CallInv s' c x) : Inv s₀ s' where
  calls := h.calls_step hcalls hratio hversion (fun c' _ => by rw [World.Wrote,hhis,World.Wrote]) hx
  once := hhis ▸ h.once
  prices := fun m v hlast => (stored_congr hsto).trans (h.prices m v (hhis ▸ hlast))
  version := by rw [version_congr hnumber,versions,hhis,h.version,versions]

lemma CallInv.congr (h : CallInv s c x) (hratio : s'.modelRatio = s.modelRatio)
    (hversion : s'.pricingVersion = s.pricingVersion) (hhis : s'.history = s.history) : CallInv s' c x := by
  apply h.frame (Nat.succ_ne_self c).symm
  · exact hratio ▸ Frame.refl
  · exact hversion ▸ Frame.refl
  · rw [World.Wrote,hhis,World.Wrote]

section
variable (h : Inv s₀ s)
include h

lemma Inv.setCall (hx : CallInv s c x) : Inv s₀ (s.setCall c x) :=
  h.quiet rfl Frame.refl Frame.refl rfl rfl rfl (hx.congr rfl rfl rfl)

lemma Inv.setMemory (replica : ℕ) (m : Ratios) : Inv s₀ (s.setMemory replica m) :=
  ⟨fun c => (h.calls c).congr rfl rfl rfl,h.once,h.prices,h.version⟩

lemma Inv.abort (hw : ¬s.Wrote c) : Inv s₀ (s.abort c) :=
  h.quiet rfl frame_rollback frame_rollback committed_rollback committed_rollback rfl (iff_of_false hw (by simp))

lemma inv_readBaseline (hcall : s.calls c = .update u (.begun fallback)) :
    Inv s₀ (advanceUpdate s c u (.begun fallback)) := by
  obtain ⟨hfree,hview,hw⟩ := hcall ▸ h.calls c
  cases hselect : s.modelRatio.selectForUpdate c with
  | waits | refused => simpa [advanceUpdate,hselect] using h
  | done p =>
    rcases p with ⟨o,row⟩
    have hcom := committed_selectForUpdate hselect
    have hframe := frame_selectForUpdate hselect
    obtain ⟨hseen,hrow⟩ := selectForUpdate_done hselect
    rw [view_of_pending_none hfree] at hseen
    rcases hrow with ⟨rfl,rfl⟩ | ⟨text,rfl,hother,rfl⟩
    · simp only [advanceUpdate,hselect]
      exact h.quiet rfl hframe Frame.refl rfl rfl rfl
        ⟨⟨hfree,fun hno => absurd hno (by simp),fun m hno => absurd hno (by simp)⟩,hview,hw,rfl⟩
    · cases text with
      | unreadable =>
        simp only [advanceUpdate,hselect]
        exact h.abort hw
      | ratios m =>
        simp only [advanceUpdate,hselect]
        exact h.quiet rfl hframe Frame.refl hcom rfl rfl
          ⟨⟨by simp [Draft.holds],fun _ => hseen,fun m hno => absurd hno (by simp)⟩,hview,hw,rfl⟩

lemma inv_writeRatios (hcall : s.calls c = .update u (.baseline d)) :
    Inv s₀ (advanceUpdate s c u (.baseline d)) := by
  obtain ⟨hd,hview,hw,hnone⟩ := hcall ▸ h.calls c
  by_cases hsets : batchRatios u.items = []
  · simp only [advanceUpdate,hsets]
    exact h.setCall ⟨hd,hview,hw,fun _ => hsets⟩
  · cases hwri : s.modelRatio.write c (.ratios (merge (batchRatios u.items) d.base)) with
    | waits | refused => simpa [advanceUpdate,hsets,hwri] using h
    | done row =>
      have hframe := frame_write hwri
      obtain ⟨_,rfl⟩ := write_done hwri
      simp only [advanceUpdate,hsets,hwri]
      exact h.quiet rfl hframe Frame.refl rfl rfl rfl
        ⟨⟨by simp [Draft.holds],hd.base,fun m hm => (Option.some.inj hm).symm⟩,hview,hw,fun hno => absurd hno (by simp)⟩

lemma inv_readVersion (hcall : s.calls c = .update u (.persisted d)) :
    Inv s₀ (advanceUpdate s c u (.persisted d)) := by
  obtain ⟨hd,hview,hw,hnone⟩ := hcall ▸ h.calls c
  cases hheader : u.header with
  | some v =>
    simp only [advanceUpdate,hheader]
    exact h.setCall ⟨hd,hview,hw,hnone⟩
  | none =>
    cases hselect : s.pricingVersion.selectForUpdate c with
    | waits | refused => simpa [advanceUpdate,hheader,hselect] using h
    | done p =>
      rcases p with ⟨v,row⟩
      have hcom := committed_selectForUpdate hselect
      have hseen := (selectForUpdate_done hselect).1
      have hrow : row.view c = row.committed := by rw [view_selectForUpdate hselect,hcom,← hseen,hview]
      simp only [advanceUpdate,hheader,hselect]
      exact h.quiet rfl Frame.refl (frame_selectForUpdate hselect) rfl hcom rfl
        ⟨⟨hd.held,hd.base,hd.merged⟩,hrow,hw,hnone⟩

end

lemma casPricingVersionTx_done
    (hview : row.view c = row.committed) (h : casPricingVersionTx c expected ver row = .done row') :
    Frame c row row' ∧ row'.committed = row.committed ∧ row'.pending c = some (some (.number ver)) ∧
      (row.committed.map VersionText.parsed).getD 0 = expected := by
  have hswap : ∀ {r r' : LockedRow VersionText ℕ}, r.compareAndSet c (.number expected) (.number ver) = .done r' →
      Frame c r r' ∧ r'.committed = r.committed ∧ r'.pending c = some (some (.number ver)) ∧
        r.view c = some (.number expected) := by
    intro r r' hr
    obtain ⟨hseen,hwri⟩ := compareAndSet_done hr
    have hframe := frame_write hwri
    obtain ⟨_,rfl⟩ := write_done hwri
    exact ⟨hframe,rfl,by simp,hseen⟩
  have hplain : row.compareAndSet c (.number expected) (.number ver) = .done row' → Frame c row row' ∧
      row'.committed = row.committed ∧ row'.pending c = some (some (.number ver)) ∧
        (row.committed.map VersionText.parsed).getD 0 = expected := by
    intro hcas
    obtain ⟨hframe,hcom,hpending,hseen⟩ := hswap hcas
    refine ⟨hframe,hcom,hpending,?_⟩
    rw [← hview,hseen]
    rfl
  by_cases hzero : expected = 0
  · cases hins : row.insertIfAbsent c (.number 0) with
    | waits | refused => simp [casPricingVersionTx,hzero,hins] at h
    | done row₁ =>
      have hcas : row₁.compareAndSet c (.number expected) (.number ver) = .done row' := by
        simpa [casPricingVersionTx,hzero,hins] using h
      rcases insertIfAbsent_done hins with ⟨habs,hwri⟩ | ⟨_,rfl⟩
      · have hframe := frame_write hwri
        obtain ⟨_,rfl⟩ := write_done hwri
        obtain ⟨hframe',hcom,hpending,_⟩ := hswap hcas
        refine ⟨hframe.trans hframe',hcom,hpending,?_⟩
        rw [← hview,habs,hzero]
        rfl
      · exact hplain hcas
  · exact hplain (by simpa [casPricingVersionTx,hzero] using h)

lemma toInt_add_one (h : v ≠ Int64.maxValue) : (v+1).toInt = v.toInt+1 := by
  have hlt : v.toInt < maxValue.toInt := by
    have hle := toInt_le v
    have hne : v.toInt ≠ maxValue.toInt := fun heq => h (toInt_inj.mp heq)
    omega
  have hmin := le_toInt v
  have hmax : maxValue.toInt = 2^63-1 := by decide
  rw [toInt_add]
  have hone : (1 : Int64).toInt = 1 := by decide
  rw [hone]
  exact Int.bmod_eq_of_le (by omega) (by omega)

lemma inv_cas (h : Inv s₀ s)
    (hcall : s.calls c = .update u (.expecting d expected)) (hmax : s.version ≠ Int64.maxValue) :
    Inv s₀ (advanceUpdate s c u (.expecting d expected)) := by
  obtain ⟨hd,hview,hw,hnone⟩ := hcall ▸ h.calls c
  cases hcas : casPricingVersionTx c expected (expected+1) s.pricingVersion with
  | waits => simpa [advanceUpdate,hcas] using h
  | refused =>
    simp only [advanceUpdate,hcas]
    exact h.abort hw
  | done row =>
    obtain ⟨hframe,hcom,hpending,hexp⟩ := casPricingVersionTx_done hview hcas
    have hversion : s.version = expected := hexp
    have hnext : (expected+1).toInt = ((row.committed.map VersionText.parsed).getD 0).toInt+1 := by
      rw [hcom,hexp,toInt_add_one (hversion ▸ hmax)]
    simp only [advanceUpdate,hcas]
    exact h.quiet rfl Frame.refl hframe rfl hcom rfl ⟨⟨hd.held,hd.base,hd.merged⟩,⟨hpending,hnext⟩,hw,hnone⟩

lemma wrote_append (hhis : s'.history = s.history++[e]) :
    s'.Wrote c' ↔ s.Wrote c' ∨ c' = e.call := by
  simp [World.Wrote,hhis]

lemma once_append (h : Inv s₀ s) (hw : ¬s.Wrote e.call) (hhis : s'.history = s.history++[e]) :
    (s'.history.map Entry.call).Nodup := by
  rw [hhis,map_append]
  refine List.Nodup.append h.once (nodup_singleton _) fun k hk hk' => ?_
  exact hw (mem_singleton.mp hk' ▸ hk)

lemma prices_append (base : Ratios) (h : Inv s₀ s) (hhis : s'.history = s.history++[e])
    (hsto : s'.modelRatio.committed = some (.ratios (merge e.sets base))) (hkeeps : CopyKeeps s e.sets base)
    (m : String) (v : ℚ) (hlast : lastSet s'.history m = some v) : s'.stored m = some v := by
  rw [hhis,lastSet_append] at hlast
  rw [stored,hsto]
  change merge e.sets base m = some v
  rw [merge_apply]
  cases hset : setBy e.sets m with
  | some w => simpa [hset] using hlast
  | none =>
    rw [hset] at hlast
    rw [Option.none_or]
    exact hkeeps m v (h.prices m v hlast) hset

section
variable (h : Inv s₀ s)
include h

lemma prices_commit (hd : DraftInv s c u d) (hnone : d.ratios = none → batchRatios u.items = [])
    (hkeeps : d.ratios ≠ none → d.found = false → CopyKeeps s (batchRatios u.items) d.base) (m : String) (v : ℚ)
    (hlast : lastSet (advanceUpdate s c u (.won d ver)).history m = some v) :
    (advanceUpdate s c u (.won d ver)).stored m = some v := by
  have hratio : (s.modelRatio.commit c).committed = d.holds.getD s.modelRatio.committed := by
    rw [committed_commit,view,hd.held]
  cases hr : d.ratios with
  | some ratios =>
    refine prices_append d.base h rfl ?_ ?_ m v hlast
    · change (s.modelRatio.commit c).committed = _
      rw [hratio,← hd.merged ratios hr]
      simp [Draft.holds,hr]
    · cases hfound : d.found with
      | false => exact hkeeps (by simp [hr]) hfound
      | true =>
        -- the baseline is the row this transaction has locked
        intro m v hv _
        simpa [stored,hd.base hfound] using hv
  | none =>
    have hsame : (s.modelRatio.commit c).committed = s.modelRatio.committed := by
      rw [hratio]
      cases hfound : d.found with
      | false => simp [Draft.holds,hr,hfound]
      | true => simp [Draft.holds,hr,hfound,hd.base hfound]
    rw [show (advanceUpdate s c u (.won d ver)).history = s.history++[⟨c,true,batchRatios u.items⟩] from rfl,
      lastSet_append,hnone hr] at hlast
    exact (stored_congr (s := s) hsame).trans (h.prices m v hlast)

lemma inv_commit (hcall : s.calls c = .update u (.won d newVersion))
    (hkeeps : d.ratios ≠ none → d.found = false → CopyKeeps s (batchRatios u.items) d.base) :
    Inv s₀ (advanceUpdate s c u (.won d newVersion)) := by
  obtain ⟨hd,⟨hpending,hnext⟩,hw,hnone⟩ := hcall ▸ h.calls c
  have hversion : (s.pricingVersion.commit c).committed = some (.number newVersion) := by
    rw [committed_commit,view,hpending]
    rfl
  refine ⟨?_,once_append h hw rfl,prices_commit h hd hnone hkeeps,?_⟩
  · refine h.calls_step rfl frame_commit frame_commit (fun c' hc => ?_) ?_
    · exact (wrote_append rfl).trans (or_iff_left hc)
    · exact (wrote_append rfl).mpr (Or.inr rfl)
  · have hv : (advanceUpdate s c u (.won d newVersion)).version = newVersion := by
      change ((s.pricingVersion.commit c).committed.map VersionText.parsed).getD 0 = newVersion
      rw [hversion]
      rfl
    have hcount : (advanceUpdate s c u (.won d newVersion)).versions = s.versions+1 := by
      simp [versions,advanceUpdate]
    rw [hv,hnext,h.version]
    omega

lemma inv_advanceUpdate (hcall : s.calls c = .update u phase)
    (hguard : Guard s (.advance c)) : Inv s₀ (advanceUpdate s c u phase) := by
  cases phase with
  | begun fallback => exact inv_readBaseline h hcall
  | baseline d => exact inv_writeRatios h hcall
  | persisted d => exact inv_readVersion h hcall
  | expecting d expected => exact inv_cas h hcall (by simpa [Guard,hcall] using hguard)
  | won d v => exact inv_commit h hcall (by simpa [Guard,hcall] using hguard)
  | committed ratios =>
    have hw : s.Wrote c := by simpa [CallInv,hcall] using h.calls c
    cases ratios with
    | none => exact h.setCall (iff_of_true hw rfl)
    | some m => exact (h.setMemory u.replica m).setCall (iff_of_true hw rfl)

lemma inv_put (hcall : s.calls c = .apply a (.ready sets base)) (hkeeps : CopyKeeps s sets base) :
    Inv s₀ (advanceApply s c a (.ready sets base)) := by
  have hw : ¬s.Wrote c := by simpa [CallInv,hcall] using h.calls c
  cases hput : s.modelRatio.put (.ratios (merge sets base)) with
  | waits | refused => simpa [advanceApply,hput] using h
  | done row =>
    have hframe : Frame c s.modelRatio row := frame_put hput
    obtain ⟨_,rfl⟩ := put_done hput
    simp only [advanceApply,hput]
    refine ⟨?_,once_append h hw rfl,prices_append base h rfl rfl hkeeps,?_⟩
    · refine h.calls_step rfl hframe Frame.refl (fun c' hc => ?_) ?_
      · exact (wrote_append rfl).trans (or_iff_left hc)
      · exact (wrote_append rfl).mpr (Or.inr rfl)
    · have hcount : ∀ e : Entry, e.versioned = false →
        ((s.history++[e]).filter Entry.versioned).length = s.versions := by
        intro e he
        simp [versions,he]
      rw [versions,hcount _ rfl]
      exact h.version

lemma inv_insertNew (hw : ¬s.Wrote c) (hins : s.modelRatio.insertNew .unreadable = .done row) :
    Inv s₀ { s.setCall c (.apply a (.ready sets base)) with modelRatio := row } := by
  obtain ⟨habs,hput⟩ := insertNew_done hins
  have hframe : Frame c s.modelRatio row := frame_put hput
  refine ⟨h.calls_step rfl hframe Frame.refl (fun _ _ => Iff.rfl) hw,h.once,fun m v hlast => ?_,h.version⟩
  -- without a row no call has written yet
  have hsto := h.prices m v hlast
  simp [stored,habs] at hsto

lemma inv_advanceApply (hcall : s.calls c = .apply a phase)
    (hguard : Guard s (.advance c)) : Inv s₀ (advanceApply s c a phase) := by
  have hc := h.calls c
  rw [hcall] at hc
  cases phase with
  | begun =>
    have hw : ¬s.Wrote c := hc
    cases hselect : selectProposals a.request s.proposals with
    | ok sets =>
      simp only [advanceApply,hselect]
      exact h.setCall hw
    | error e =>
      simp only [advanceApply,hselect]
      exact h.setCall (iff_of_false hw (by simp))
  | selected sets => exact h.setCall hc
  | copied sets base => exact (h.setMemory _ _).setCall hc
  | published sets base => exact h.setCall hc
  | looked sets base found =>
    have hw : ¬s.Wrote c := hc
    cases found with
    | true => exact h.setCall hw
    | false =>
      cases hins : s.modelRatio.insertNew .unreadable with
      | waits => simpa [advanceApply,hins] using h
      | refused =>
        simp only [advanceApply,hins]
        exact h.setCall (iff_of_false hw (by simp))
      | done row =>
        simp only [advanceApply,hins]
        exact inv_insertNew h hw hins
  | ready sets base => exact inv_put h hcall (by simpa [Guard,hcall] using hguard)
  | saved ratios => exact (h.setMemory _ _).setCall hc
  | refreshed =>
    refine h.quiet rfl Frame.refl Frame.refl rfl rfl rfl ?_
    exact iff_of_true hc rfl

theorem inv_fail (hguard : Guard s (.fail c)) : Inv s₀ (step s (.fail c)) := by
  have hc := h.calls c
  simp only [step]
  cases hcall : s.calls c with
  | idle | finished ok => exact h
  | update u phase =>
    rw [hcall] at hc
    cases phase with
    | begun fallback => exact h.abort hc.2.2
    | baseline d | persisted d | expecting d expected | won d v => exact h.abort hc.2.2.1
    | committed ratios => exact h
  | apply a phase =>
    rw [hcall] at hc
    cases phase with
    | saved ratios => exact h
    | refreshed => simp [Guard,hcall] at hguard
    | _ => exact h.setCall (iff_of_false hc (by simp))

lemma inv_step (hguard : Guard s l) : Inv s₀ (step s l) := by
  cases l with
  | fail c => exact inv_fail h hguard
  | advance c =>
    simp only [step]
    cases hcall : s.calls c with
    | idle | finished ok => exact h
    | update u phase => exact inv_advanceUpdate h hcall hguard
    | apply a phase => exact inv_advanceApply h hcall hguard
  | sync replica =>
    simp only [step]
    split
    · exact h.setMemory _ _
    · exact h
  | updatePricing c replica items header =>
    simp only [step]
    cases hcall : s.calls c with
    | idle =>
      have hc : CallInv s c .idle := hcall ▸ h.calls c
      by_cases hval : validatePricingBatch items = none
      · simp only [hval]
        exact h.setCall hc
      · simp only [hval]
        exact h.setCall (iff_of_false hc.2.2 (by simp))
    | _ => exact h
  | applyProposals c replica request =>
    simp only [step]
    cases hcall : s.calls c with
    | idle =>
      have hc : CallInv s c .idle := hcall ▸ h.calls c
      exact h.setCall hc.2.2
    | _ => exact h

end

structure Start (s : World) : Prop where
  calls : ∀ c, s.calls c = .idle
  history : s.history = []
  modelRatio : s.modelRatio.held = none
  pricingVersion : s.pricingVersion.held = none

lemma pending_of_held_none {X : Type} {r : LockedRow X ℕ} (h : r.held = none) : r.pending c = none := by
  simp [pending,h]

lemma inv_start (h : Start s) : Inv s s := by
  refine ⟨fun c => ?_,by simp [h.history],fun m v hlast => ?_,by simp [versions,h.history]⟩
  · rw [h.calls c]
    exact ⟨pending_of_held_none h.modelRatio,view_of_pending_none (pending_of_held_none h.pricingVersion),
      by simp [World.Wrote,h.history]⟩
  · rw [h.history] at hlast
    cases hlast

lemma wrote_iff_of_settled (h : Inv s₀ s) (hsettled : Settled s) (c : ℕ) : s.Wrote c ↔ s.calls c = .finished true := by
  have hc := h.calls c
  rcases hsettled c with hcall | ⟨ok,hcall⟩
  · rw [hcall] at hc ⊢
    exact iff_of_false hc.2.2 (by simp)
  · rw [hcall] at hc ⊢
    exact Iff.trans hc (by simp)

lemma successes_of_settled (h : Inv s₀ s) (hsettled : Settled s) : successes s = s.history := by
  apply filter_eq_self.mpr
  intro e he
  rw [(wrote_iff_of_settled h hsettled e.call).mp (mem_map_of_mem he)]
  rfl

end

theorem last_price_stored {s : World} (hstart : Start s) (ls : List Label) (hguard : Along step Guard s ls)
    (hsettled : Settled (run step s ls)) :
    (∀ m v, lastSet (successes (run step s ls)) m = some v → (run step s ls).stored m = some v) ∧
    (run step s ls).version.toInt =
      s.version.toInt+((successes (run step s ls)).filter Entry.versioned).length ∧
    ((successes (run step s ls)).map Entry.call).Nodup ∧
    ∀ c, c ∈ (successes (run step s ls)).map Entry.call ↔ (run step s ls).calls c = .finished true := by
  have hinv : Inv s (run step s ls) :=
    run_invariant (fun _ _ h hg => inv_step h hg) (inv_start hstart) hguard
  rw [successes_of_settled hinv hsettled]
  exact ⟨hinv.prices,hinv.version,hinv.once,wrote_iff_of_settled hinv hsettled⟩

def priced : World where
  modelRatio := ⟨some (.ratios (merge [("gpt-4o",1)] fun _ => none)),none⟩
  pricingVersion := ⟨some (.number 4),none⟩
  memory := fun _ => merge [("gpt-4o",1)] fun _ => none
  proposals := [⟨1,"claude","model_ratio",3,"v1",false,false⟩]
  calls := fun _ => .idle
  history := []

def updateGpt : List Label := .updatePricing 0 0 [⟨"gpt-4o",some 2⟩] (some 4)::List.replicate 6 (.advance 0)

def applyClaude : List Label := .applyProposals 1 1 ⟨"v1",[1]⟩::List.replicate 8 (.advance 1)

theorem last_price_stored_synced :
    (run step priced (updateGpt++.sync 1::applyClaude)).stored "gpt-4o" = some 2 ∧
    (run step priced (updateGpt++.sync 1::applyClaude)).stored "claude" = some 3 ∧
    (run step priced (updateGpt++.sync 1::applyClaude)).version.toInt = 5 := by
  have hversion : (4 : Int64) ≠ maxValue := by decide
  have hguard : Along step Guard priced (updateGpt++.sync 1::applyClaude) :=
    ⟨trivial,trivial,trivial,trivial,hversion,fun _ hno => Bool.noConfusion hno,trivial,trivial,trivial,trivial,
      trivial,trivial,trivial,trivial,fun _ _ h _ => h,trivial,trivial,trivial⟩
  have hsettled : Settled (run step priced (updateGpt++.sync 1::applyClaude)) := by
    intro c
    rcases c with _ | _ | c
    · exact Or.inr ⟨true,rfl⟩
    · exact Or.inr ⟨true,rfl⟩
    · exact Or.inl rfl
  have h := last_price_stored ⟨fun _ => rfl,rfl,rfl,rfl⟩ _ hguard hsettled
  exact ⟨h.1 "gpt-4o" 2 (by decide +kernel),h.1 "claude" 3 (by decide +kernel),h.2.1.trans (by decide +kernel)⟩

theorem stale_memory_loses_price :
    ((run step priced (updateGpt++applyClaude)).calls 0).succeeded = true ∧
    ((run step priced (updateGpt++applyClaude)).calls 1).succeeded = true ∧
    lastSet (successes (run step priced (updateGpt++applyClaude))) "gpt-4o" = some 2 ∧
    (run step priced (updateGpt++applyClaude)).stored "gpt-4o" = some 1 := by
  decide +kernel

end LurusHub.PricingWrites
