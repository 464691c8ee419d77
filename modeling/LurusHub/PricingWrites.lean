import LurusHub.RowLock
import LurusHub.Transition
import Mathlib.Data.Rat.Init
import Mathlib.Data.Int.Notation

/-! The two writers of the stored `ModelRatio` map. `UpdatePricingV2` merges on the row it has
locked and swaps the `PricingVersion` in the same transaction; `ApplyPriceProposals` merges on its
replica's memory and saves the whole map. Every statement is a step, calls interleave, and a memory
follows only when it syncs. Of a batch only model ratios are kept. -/
namespace LurusHub.PricingWrites

abbrev Ratios := String → Option ℚ

inductive RatioText where
  | ratios (m : Ratios)
  | unreadable

inductive VersionText where
  | number (v : Int64)
  | other (parsed : Int64)
  deriving DecidableEq

def VersionText.parsed : VersionText → Int64
  | .number v => v
  | .other parsed => parsed

structure UpdatePricingRequest where
  modelName : String
  modelRatio : Option ℚ

/-- The first item at fault with its code and message. -/
def validateItems (index : ℤ) : List UpdatePricingRequest → Option (ℤ × String × String)
  | [] => none
  | item::items =>
    if item.modelName = "" then some (index,"MISSING_MODEL_NAME","model_name is required")
    else if item.modelRatio.any (· ≤ 0) then some (index,"INVALID_RATIO","model_ratio must be > 0")
    else validateItems (index+1) items

def validatePricingBatch (items : List UpdatePricingRequest) : Option (ℤ × String × String) :=
  if items = [] then some (-1,"EMPTY_BATCH","request body must contain at least one item")
  else validateItems 0 items

def batchRatios (items : List UpdatePricingRequest) : List (String × ℚ) :=
  items.filterMap fun item => item.modelRatio.map (item.modelName,·)

def merge (sets : List (String × ℚ)) (base : Ratios) : Ratios :=
  sets.foldl (fun m p => Function.update m p.1 (some p.2)) base

structure CatalogPriceProposal where
  id : ℤ
  (modelName field : String)
  upstreamValue : ℚ
  sourceVersion : String
  (applied dismissed : Bool)

structure ApplyPriceRequest where
  sourceVersion : String
  ids : List ℤ

inductive ApplyError where
  | emptySelection
  | sourceVersionMismatch
  | unsupportedField (field : String)
  deriving DecidableEq

def checkProposals (sourceVersion : String) : List CatalogPriceProposal → Except ApplyError Unit
  | [] => .ok ()
  | row::rows =>
    if row.sourceVersion ≠ "" ∧ row.sourceVersion ≠ sourceVersion then .error .sourceVersionMismatch
    else if row.field ≠ "model_ratio" then .error (.unsupportedField row.field)
    else checkProposals sourceVersion rows

def selectProposals (req : ApplyPriceRequest) (proposals : List CatalogPriceProposal) :
    Except ApplyError (List (String × ℚ)) := do
  if req.ids = [] then throw .emptySelection
  if req.sourceVersion = "" then throw .sourceVersionMismatch
  let rows := proposals.filter fun p => p.id ∈ req.ids && !p.applied && !p.dismissed
  if rows.isEmpty then throw .emptySelection
  checkProposals req.sourceVersion rows
  pure (rows.map fun p => (p.modelName,p.upstreamValue))

structure Draft where
  base : Ratios
  found : Bool
  ratios : Option Ratios

structure UpdateCall where
  replica : ℕ
  items : List UpdatePricingRequest
  header : Option Int64

inductive UpdatePhase where
  | begun (fallback : Ratios)
  | baseline (d : Draft)
  | persisted (d : Draft)
  | expecting (d : Draft) (expected : Int64)
  | won (d : Draft) (newVersion : Int64)
  | committed (ratios : Option Ratios)

structure ApplyCall where
  replica : ℕ
  request : ApplyPriceRequest

inductive ApplyPhase where
  | begun
  | selected (sets : List (String × ℚ))
  | copied (sets : List (String × ℚ)) (base : Ratios)
  | published (sets : List (String × ℚ)) (base : Ratios)
  | looked (sets : List (String × ℚ)) (base : Ratios) (found : Bool)
  | ready (sets : List (String × ℚ)) (base : Ratios)
  | saved (ratios : Ratios)
  | refreshed

inductive Call where
  | idle
  | update (u : UpdateCall) (phase : UpdatePhase)
  | apply (a : ApplyCall) (phase : ApplyPhase)
  | finished (ok : Bool)

structure Entry where
  call : ℕ
  versioned : Bool
  sets : List (String × ℚ)

structure World where
  modelRatio : LockedRow RatioText ℕ
  pricingVersion : LockedRow VersionText ℕ
  memory : ℕ → Ratios
  proposals : List CatalogPriceProposal
  calls : ℕ → Call
  history : List Entry

namespace World

def setCall (s : World) (c : ℕ) (x : Call) : World := { s with calls := Function.update s.calls c x }

def abort (s : World) (c : ℕ) : World :=
  { s.setCall c (.finished false) with modelRatio := s.modelRatio.rollback c,
                                       pricingVersion := s.pricingVersion.rollback c }

def setMemory (s : World) (replica : ℕ) (m : Ratios) : World :=
  { s with memory := Function.update s.memory replica m }

end World

def casPricingVersionTx (c : ℕ) (expected newVersion : Int64) (row : LockedRow VersionText ℕ) :
    LockedRow.Attempt (LockedRow VersionText ℕ) :=
  if expected = 0 then
    match row.insertIfAbsent c (.number 0) with
    | .done row => row.compareAndSet c (.number expected) (.number newVersion)
    | .waits => .waits
    | .refused => .refused
  else row.compareAndSet c (.number expected) (.number newVersion)

/-- The next statement of a pricing update; one that has to wait leaves everything as it is. -/
def advanceUpdate (s : World) (c : ℕ) (u : UpdateCall) : UpdatePhase → World
  | .begun fallback =>
    match s.modelRatio.selectForUpdate c with
    | .done (none,row) => { s.setCall c (.update u (.baseline ⟨fallback,false,none⟩)) with modelRatio := row }
    | .done (some (.ratios m),row) => { s.setCall c (.update u (.baseline ⟨m,true,none⟩)) with modelRatio := row }
    | .done (some .unreadable,_) => s.abort c
    | _ => s
  | .baseline d =>
    if batchRatios u.items = [] then s.setCall c (.update u (.persisted d))
    else
      match s.modelRatio.write c (.ratios (merge (batchRatios u.items) d.base)) with
      | .done row =>
        { s.setCall c (.update u (.persisted { d with ratios := some (merge (batchRatios u.items) d.base) })) with
          modelRatio := row }
      | _ => s
  | .persisted d =>
    match u.header with
    | some v => s.setCall c (.update u (.expecting d v))
    | none =>
      match s.pricingVersion.selectForUpdate c with
      | .done (v,row) =>
        { s.setCall c (.update u (.expecting d ((v.map VersionText.parsed).getD 0))) with pricingVersion := row }
      | _ => s
  | .expecting d expected =>
    match casPricingVersionTx c expected (expected+1) s.pricingVersion with
    | .done row => { s.setCall c (.update u (.won d (expected+1))) with pricingVersion := row }
    | .refused => s.abort c
    | .waits => s
  | .won d _ =>
    { s.setCall c (.update u (.committed d.ratios)) with
      modelRatio := s.modelRatio.commit c
      pricingVersion := s.pricingVersion.commit c
      history := s.history++[⟨c,true,batchRatios u.items⟩] }
  | .committed ratios =>
    (match ratios with
      | some m => s.setMemory u.replica m
      | none => s).setCall c (.finished true)

def advanceApply (s : World) (c : ℕ) (a : ApplyCall) : ApplyPhase → World
  | .begun =>
    match selectProposals a.request s.proposals with
    | .ok sets => s.setCall c (.apply a (.selected sets))
    | .error _ => s.setCall c (.finished false)
  | .selected sets => s.setCall c (.apply a (.copied sets (s.memory a.replica)))
  | .copied sets base => (s.setMemory a.replica (merge sets base)).setCall c (.apply a (.published sets base))
  | .published sets base => s.setCall c (.apply a (.looked sets base s.modelRatio.committed.isSome))
  | .looked sets base found =>
    if found then s.setCall c (.apply a (.ready sets base))
    else
      -- `FirstOrCreate` inserts the row with an empty value
      match s.modelRatio.insertNew .unreadable with
      | .done row => { s.setCall c (.apply a (.ready sets base)) with modelRatio := row }
      | .refused => s.setCall c (.finished false)
      | .waits => s
  | .ready sets base =>
    match s.modelRatio.put (.ratios (merge sets base)) with
    | .done row =>
      { s.setCall c (.apply a (.saved (merge sets base))) with
        modelRatio := row
        history := s.history++[⟨c,false,sets⟩] }
    | _ => s
  | .saved ratios => (s.setMemory a.replica ratios).setCall c (.apply a .refreshed)
  | .refreshed =>
    { s.setCall c (.finished true) with
      proposals := s.proposals.map fun p => if p.id ∈ a.request.ids then { p with applied := true } else p }

inductive Label where
  | updatePricing (c replica : ℕ) (items : List UpdatePricingRequest) (header : Option Int64)
  | applyProposals (c replica : ℕ) (request : ApplyPriceRequest)
  | advance (c : ℕ)
  | fail (c : ℕ)
  | sync (replica : ℕ)

/-- A call starts once under its number; its next statement is done, waits or fails; a replica syncs. -/
def step (s : World) : Label → World
  | .updatePricing c replica items header =>
    match s.calls c with
    | .idle =>
      if validatePricingBatch items = none then
        s.setCall c (.update ⟨replica,items,header⟩ (.begun (s.memory replica)))
      else s.setCall c (.finished false)
    | _ => s
  | .applyProposals c replica request =>
    match s.calls c with
    | .idle => s.setCall c (.apply ⟨replica,request⟩ .begun)
    | _ => s
  | .advance c =>
    match s.calls c with
    | .update u phase => advanceUpdate s c u phase
    | .apply a phase => advanceApply s c a phase
    | _ => s
  | .fail c =>
    match s.calls c with
    | .update _ (.committed _) => s
    | .update _ _ => s.abort c
    | .apply _ (.saved _) => s
    | .apply _ _ => s.setCall c (.finished false)
    | _ => s
  | .sync replica =>
    match s.modelRatio.committed with
    | some (.ratios m) => s.setMemory replica m
    | _ => s

end LurusHub.PricingWrites
