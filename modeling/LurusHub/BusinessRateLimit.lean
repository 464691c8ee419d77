import LurusHub.KeyedRuns
import LurusHub.SlidingWindow
import Mathlib.Order.Bounds.Basic
import Mathlib.Algebra.Order.Ring.Int

/-! The per-process window of the business rate limits. A key has its admission times in
milliseconds, oldest first; a call drops what has left the window and is admitted while there is
room. The clock has nanoseconds, which the limiter cuts off. -/
namespace LurusHub.BusinessRateLimit
open Transition SlidingWindow List

/-- `time.Time.UnixMilli` of nanoseconds since 1970. -/
def unixMilli (now : ℤ) : ℤ := now/1000000

def milliseconds (window : ℤ) : ℤ := window.tdiv 1000000

def second : ℤ := 1000000000

structure BizWindowState where
  valid : Bool
  used : ℕ
  oldestMs : ℤ
  deriving DecidableEq

structure Call where
  key : String
  (limit window now : ℤ)

structure Reply where
  admitted : Bool
  retryAfterSec : ℤ
  state : BizWindowState
  deriving DecidableEq

def bizRetryAfterSec (oldestMs nowMs window : ℤ) : ℤ :=
  let remaining := oldestMs+milliseconds window-nowMs
  let sec := (remaining+999).tdiv 1000
  if sec < 1 then 1 else sec

def pruned (ts : List ℤ) (c : Call) : List ℤ := ts.dropWhile fun t => t ≤ unixMilli c.now-milliseconds c.window

/-- There is no reply where the source reads the first of no times, which a limit of at least one
excludes. -/
def allow (ts : List ℤ) (c : Call) : Option Reply × List ℤ :=
  let nowMs := unixMilli c.now
  let ts := pruned ts c
  if c.limit ≤ ts.length then
    (ts.head?.map fun oldest => ⟨false,bizRetryAfterSec oldest nowMs c.window,⟨true,ts.length,oldest⟩⟩,ts)
  else
    let ts := ts++[nowMs]
    (ts.head?.map fun oldest => ⟨true,0,⟨true,ts.length,oldest⟩⟩,ts)

def Admits (ts : List ℤ) (c : Call) : Prop := (allow ts c).1.any Reply.admitted = true
  deriving Decidable

structure Window where
  entries : List ℤ := []
  admissions : List ℤ := []
  deriving DecidableEq

def serve (w : Window) (c : Call) : Window where
  entries := (allow w.entries c).2
  admissions := if Admits w.entries c then c.now::w.admissions else w.admissions

def windows (calls : List Call) : String → Window := run (stepAt Call.key serve) (fun _ => {}) calls

/-- The admissions in the window that ends now, in milliseconds. -/
def inWindow (window now : ℤ) (admissions : List ℤ) : List ℤ :=
  (admissions.map unixMilli).filter fun t => unixMilli now-milliseconds window < t ∧ t ≤ unixMilli now

/-! One call. -/

lemma admits_iff : Admits ts c ↔ ((pruned ts c).length : ℤ) < c.limit := by
  unfold Admits allow
  by_cases h : c.limit ≤ (pruned ts c).length
  · simp only [if_pos h,Option.any_map]
    simp [h]
  · simp only [if_neg h]
    simpa [head?_append] using h

lemma entries_serve :
    (serve w c).entries = if Admits w.entries c then pruned w.entries c++[unixMilli c.now] else pruned w.entries c := by
  simp only [admits_iff,serve,allow]
  split_ifs with h h' h'
  · exact absurd h' (not_lt.mpr h)
  · rfl
  · rfl
  · exact absurd (not_le.mp h) h'

lemma reply_eq :
    (allow w.entries c).1 = (serve w c).entries.head?.map fun oldest =>
      ⟨decide (Admits w.entries c),if Admits w.entries c then 0 else bizRetryAfterSec oldest (unixMilli c.now) c.window,
        ⟨true,(serve w c).entries.length,oldest⟩⟩ := by
  by_cases h : Admits w.entries c
  · have hroom := not_le.mpr (admits_iff.mp h)
    simp [entries_serve,h,allow,hroom]
  · have hroom := not_lt.mp (admits_iff.not.mp h)
    simp [entries_serve,h,allow,hroom]

/-! The times of a key against its admissions. -/

structure Call.Has (c : Call) (key : String) (limit window : ℤ) : Prop where
  key : c.key = key
  limit : c.limit = limit
  window : c.window = window

structure Tracks (limit window : ℤ) (w : Window) (now : ℤ) : Prop where
  paced : Paced limit.toNat (milliseconds window) (w.admissions.map unixMilli)
  past : ∀ t ∈ w.admissions.map unixMilli, t ≤ unixMilli now
  entries : ∃ cut ≤ unixMilli now-milliseconds window, w.entries = (since cut (w.admissions.map unixMilli)).reverse

lemma unixMilli_mono (h : s ≤ t) : unixMilli s ≤ unixMilli t := Int.ediv_le_ediv (by decide) h

lemma unixMilli_add_seconds : unixMilli (now+s*second) = unixMilli now+1000*s := by
  unfold unixMilli second
  omega

lemma Tracks.later (h : Tracks limit window w now) (hle : now ≤ now') : Tracks limit window w now' := by
  have hmil := unixMilli_mono hle
  obtain ⟨cut,hcut,hentries⟩ := h.entries
  exact ⟨h.paced,fun t ht => (h.past t ht).trans hmil,cut,by omega,hentries⟩

lemma tracks_start (limit window now : ℤ) : Tracks limit window {} now := ⟨.nil,by simp,_,le_refl _,rfl⟩

section Call
variable {c : Call}

section
variable (h : Tracks limit window w c.now)
include h

lemma pruned_eq (hc : c.Has key limit window) :
    pruned w.entries c = (since (unixMilli c.now-milliseconds window) (w.admissions.map unixMilli)).reverse := by
  obtain ⟨cut,hcut,hentries⟩ := h.entries
  rw [pruned,hc.window,hentries]
  exact dropWhile_since h.paced.sorted hcut

lemma admits_iff_since (hc : c.Has key limit window) :
    Admits w.entries c ↔ ((since (unixMilli c.now-milliseconds window) (w.admissions.map unixMilli)).length : ℤ) < limit := by
  rw [admits_iff,pruned_eq h hc,length_reverse,hc.limit]

lemma entries_serve_eq (hc : c.Has key limit window) (hwin : 0 < milliseconds window) : (serve w c).entries =
      (since (unixMilli c.now-milliseconds window) ((serve w c).admissions.map unixMilli)).reverse := by
  rw [entries_serve,pruned_eq h hc]
  by_cases hadmits : Admits w.entries c
  · have hnow : unixMilli c.now-milliseconds window < unixMilli c.now := by omega
    simp [serve,if_pos hadmits,since_cons_of_lt hnow]
  · simp only [serve,if_neg hadmits]

lemma tracks_serve (hc : c.Has key limit window) (hwin : 0 < milliseconds window) :
    Tracks limit window (serve w c) c.now := by
  by_cases hadmits : Admits w.entries c
  · have hroom := (admits_iff_since h hc).mp hadmits
    have hlog : (serve w c).admissions.map unixMilli = unixMilli c.now::w.admissions.map unixMilli := by
      simp [serve,if_pos hadmits]
    refine ⟨?_,?_,_,le_refl _,entries_serve_eq h hc hwin⟩
    · rw [hlog]
      exact .cons h.paced h.past (by omega)
    · rw [hlog]
      exact forall_mem_cons.mpr ⟨le_refl _,h.past⟩
  · have hlog : (serve w c).admissions = w.admissions := by simp only [serve,if_neg hadmits]
    exact ⟨hlog ▸ h.paced,hlog ▸ h.past,_,le_refl _,entries_serve_eq h hc hwin⟩

end

end Call

lemma tracks_windows (hwin : 0 < milliseconds window)
    (hcalls : ∀ c ∈ calls, c.key = key → c.Has key limit window)
    (htim : ((labelsOf Call.key key calls).map Call.now).Pairwise (· ≤ ·))
    (hnow : ∀ c ∈ calls, c.key = key → c.now ≤ now) : Tracks limit window (windows calls key) now := by
  have hhas : ∀ c ∈ labelsOf Call.key key calls, c.Has key limit window := fun c hc =>
    hcalls c (mem_labelsOf.mp hc).1 (mem_labelsOf.mp hc).2
  rw [windows,run_stepAt]
  refine run_timed (fun _ _ _ h hle => h.later hle) (fun _ _ h hc => tracks_serve h hc hwin) htim hhas (fun c hc => ?_)
    (tracks_start limit window)
  exact hnow c (mem_labelsOf.mp hc).1 (mem_labelsOf.mp hc).2

/-! What a reply says. -/

structure Exact (w : Window) (c : Call) (r : Reply) : Prop where
  admitted : r.admitted = true ↔ ((inWindow c.window c.now w.admissions).length : ℤ) < c.limit
  retryAfter : r.admitted = false →
    IsLeast {s : ℤ | 1 ≤ s ∧ Admits (serve w c).entries { c with now := c.now+s*second }} r.retryAfterSec
  valid : r.state.valid = true
  used : r.state.used = (inWindow c.window c.now (serve w c).admissions).length
  oldest : IsLeast {t | t ∈ inWindow c.window c.now (serve w c).admissions} r.state.oldestMs

lemma inWindow_eq (h : Tracks limit window w now) :
    inWindow window now w.admissions = since (unixMilli now-milliseconds window) (w.admissions.map unixMilli) := by
  refine filter_congr fun t ht => ?_
  simp [h.past t ht]

lemma bizRetryAfterSec_le_iff (h : nowMs-milliseconds window < oldestMs) :
    bizRetryAfterSec oldestMs nowMs window ≤ s ↔ 1 ≤ s ∧ oldestMs ≤ nowMs+1000*s-milliseconds window := by
  unfold bizRetryAfterSec
  simp only
  rw [Int.tdiv_eq_ediv_of_nonneg (by omega)]
  split_ifs
  · omega
  · omega

lemma Tracks.sorted (h : Tracks limit window w now) : (inWindow window now w.admissions).Pairwise (· ≥ ·) :=
  h.paced.sorted.filter _

lemma Tracks.length_inWindow_le (h : Tracks limit window w now) :
    (inWindow window now w.admissions).length ≤ limit.toNat := by
  refine h.paced.length_filter_le fun s t hs ht _ => ?_
  simp only [decide_eq_true_eq] at hs ht
  omega

lemma retryAfter_iff (h : Tracks limit window w c.now) (hc : c.Has key limit window) (hwin : 0 < milliseconds window)
    (hden : ¬Admits w.entries c) (holdest : (inWindow window c.now w.admissions).getLast? = some oldest) (s : ℤ) :
    1 ≤ s ∧ Admits (serve w c).entries { c with now := c.now+s*second } ↔
      bizRetryAfterSec oldest (unixMilli c.now) window ≤ s := by
  have hmem := mem_of_getLast? holdest
  have hin : unixMilli c.now-milliseconds window < oldest := by
    rw [inWindow_eq h] at hmem
    exact (mem_since.mp hmem).2
  rw [bizRetryAfterSec_le_iff hin]
  refine and_congr_right fun hs => ?_
  have hadmissions : (serve w c).admissions = w.admissions := by simp only [serve,if_neg hden]
  have hfull : (inWindow window c.now w.admissions).length = limit.toNat := by
    have hroom := (admits_iff_since h hc).not.mp hden
    have hle := h.length_inWindow_le
    rw [inWindow_eq h] at hle ⊢
    omega
  have hlater : Tracks limit window (serve w c) (c.now+s*second) :=
    (tracks_serve h hc hwin).later (by unfold second; omega)
  have hleft := length_since_lt_iff h.sorted holdest (unixMilli c.now+1000*s-milliseconds window)
  rw [hfull,inWindow_eq h,since_since (by omega)] at hleft
  have hadmits := admits_iff_since (c := { c with now := c.now+s*second }) hlater ⟨hc.key,hc.limit,hc.window⟩
  rw [hadmits,unixMilli_add_seconds,hadmissions]
  omega

lemma serve_ne_nil (hc : c.Has key limit window) (hlim : 1 ≤ limit) : (serve w c).entries ≠ [] := by
  rw [entries_serve]
  split_ifs with hadmits
  · exact append_ne_nil_of_right_ne_nil _ (cons_ne_nil _ _)
  · rw [admits_iff,hc.limit] at hadmits
    exact ne_nil_of_length_pos (by omega)

lemma exact_reply (h : Tracks limit window w c.now) (hc : c.Has key limit window) (hlim : 1 ≤ limit)
    (hwin : 0 < milliseconds window) : ∃ r, (allow w.entries c).1 = some r ∧ Exact w c r := by
  have hafter := tracks_serve h hc hwin
  have hentries : (serve w c).entries = (inWindow window c.now (serve w c).admissions).reverse := by
    rw [inWindow_eq hafter]
    exact entries_serve_eq h hc hwin
  obtain ⟨oldest,rest,hcons⟩ := exists_cons_of_ne_nil (serve_ne_nil hc hlim)
  have holdest : (inWindow window c.now (serve w c).admissions).getLast? = some oldest := by
    rw [← head?_reverse,← hentries,hcons]
    rfl
  refine ⟨_,(reply_eq).trans (congrArg _ (congrArg head? hcons)),?_,fun hden => ?_,rfl,?_,?_⟩
  · rw [decide_eq_true_eq,admits_iff_since h hc,hc.window,inWindow_eq h,hc.limit]
  · have hnot : ¬Admits w.entries c := of_decide_eq_false hden
    have hadmissions : (serve w c).admissions = w.admissions := by simp only [serve,if_neg hnot]
    rw [hadmissions] at holdest
    have hset := Set.ext fun s => retryAfter_iff h hc hwin hnot holdest s
    rw [hset]
    simp only [if_neg hnot,hc.window]
    exact isLeast_Ici
  · rw [hc.window]
    simp [hentries]
  · rw [hc.window]
    refine ⟨mem_of_getLast? holdest,fun t ht => ?_⟩
    have hle := hafter.sorted.rel_getLast ht
    rwa [getLast_of_getLast?_eq_some holdest] at hle

theorem allow_exact {key : String} {limit window : ℤ} (hlimit : 1 ≤ limit) (hwindow : 0 < milliseconds window) {calls : List Call}
    (hcalls : ∀ c ∈ calls, c.key = key → c.Has key limit window)
    (htimes : ((labelsOf Call.key key calls).map Call.now).Pairwise (· ≤ ·)) :
    (∀ a, ((((windows calls key).admissions.map unixMilli).filter fun t => a < t ∧
    t ≤ a+milliseconds window).length : ℤ) ≤ limit ∧
      ((((windows calls key).admissions.map unixMilli).filter fun t => a ≤ t ∧ t < a+milliseconds window).length : ℤ) ≤ limit) ∧
    ∀ c : Call, c.Has key limit window → (∀ d ∈ calls, d.key = key → d.now ≤ c.now) →
      ∃ r, (allow (windows calls key).entries c).1 = some r ∧ Exact (windows calls key) c r := by
  constructor
  · intro a
    obtain ⟨now,hnow⟩ := exists_after Call.now calls
    have hpac := (tracks_windows hwindow hcalls htimes fun c hc _ => hnow c hc).paced
    refine ⟨?_,?_⟩
    · have hle := hpac.length_filter_le (p := fun t => a < t ∧ t ≤ a+milliseconds window) fun s t hs ht _ => by
        simp only [decide_eq_true_eq] at hs ht
        omega
      omega
    · have hle := hpac.length_filter_le (p := fun t => a ≤ t ∧ t < a+milliseconds window) fun s t hs ht _ => by
        simp only [decide_eq_true_eq] at hs ht
        omega
      omega
  · intro c hc hbefore
    exact exact_reply (tracks_windows hwindow hcalls htimes hbefore) hc hlimit hwindow

def perMinute (now : ℤ) : Call := ⟨"rpm:token:1",1,60*second,now⟩

lemma has_perMinute : (perMinute now).Has "rpm:token:1" 1 (60*second) := ⟨rfl,rfl,rfl⟩

theorem allow_exact_perMinute :
    ∃ r, (allow (windows [perMinute 0,perMinute (30*second)] "rpm:token:1").entries (perMinute (30*second))).1 = some r ∧
      Exact (windows [perMinute 0,perMinute (30*second)] "rpm:token:1") (perMinute (30*second)) r := by
  have hcalls : ∀ c ∈ [perMinute 0,perMinute (30*second)], c.key = "rpm:token:1" → c.Has "rpm:token:1" 1 (60*second) := by
    intro c hc _
    rcases mem_pair.mp hc with rfl | rfl
    · exact has_perMinute
    · exact has_perMinute
  exact (allow_exact (by decide) (by decide) hcalls (by decide +kernel)).2 (perMinute (30*second)) has_perMinute
    (by decide +kernel)

theorem allow_early :
    Admits (windows [perMinute 900000] "rpm:token:1").entries (perMinute (60*second+100000)) ∧
    (windows [perMinute 900000] "rpm:token:1").admissions = [900000] ∧
    60*second+100000-60*second < 900000 ∧ 900000 ≤ 60*second+100000 := by decide +kernel

end LurusHub.BusinessRateLimit
