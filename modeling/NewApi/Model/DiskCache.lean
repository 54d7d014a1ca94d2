import Mathlib.Algebra.Order.BigOperators.Group.List
import NewApi.Lib.Integers
import NewApi.Lib.Pool
import NewApi.Lib.System

/-!
# The size of the disk cache

Before a body is written to a file, `IsDiskCacheAvailable` compares the declared length and the
accounted usage with the configured maximum; the file is accounted when it has been written, by its
own length. Creations and closings of storages go on at the same time.
-/

namespace NewApi.Model

open NewApi.Lib NewApi.Lib.Strings

structure DiskCacheConfig where
  enabled : Bool
  thresholdMB : ℤ
  maxSizeMB : ℤ
deriving DecidableEq

namespace DiskCache

/-! ## Creations and closings -/

/-- Sums and shifts are those of the machine. -/
def wrap (n : ℤ) : ℤ :=
  n.bmod (2 ^ 64)

def getDiskCacheThresholdBytes (cfg : DiskCacheConfig) : ℤ :=
  wrap (cfg.thresholdMB * 2 ^ 20)

def getDiskCacheMaxSizeBytes (cfg : DiskCacheConfig) : ℤ :=
  wrap (cfg.maxSizeMB * 2 ^ 20)

def isDiskCacheAvailable (cfg : DiskCacheConfig) (currentUsage requestSize : ℤ) : Bool :=
  cfg.enabled && wrap (currentUsage + requestSize) ≤ getDiskCacheMaxSizeBytes cfg

/-- A creation that writes to its file `written` bytes so far and `rest` bytes to come, one that has
its body in memory, a storage on disk, one whose file is removed, and what is over. -/
inductive Storage
  | writing (written rest : ℕ) (tooLarge : Bool)
  | buffered (size : ℕ)
  | opened (size : ℕ)
  | removed (size : ℕ)
  | done
deriving DecidableEq

/-- The accounted usage, of files that have been on the disk, and the storages with the creations
under way. -/
structure CacheState where
  currentDiskUsageBytes : ℤ
  storages : List Storage
deriving DecidableEq

/-- `body` is the length of what the reader gives, or of the bytes; `ok` says whether the file
operation succeeds. -/
inductive CacheStep
  | createBodyStorageFromReader (body : ℕ) (contentLength maxBytes : ℤ)
  | createBodyStorage (body : ℕ)
  | check (storage : ℕ)
  | write (storage chunk : ℕ) (ok : Bool)
  | incrementDiskFiles (storage : ℕ) (ok : Bool)
  | close (storage : ℕ)
  | decrementDiskFiles (storage : ℕ)
deriving DecidableEq

/-- The bytes that come through `io.LimitReader(reader, maxBytes+1)`. -/
def limited (body : ℕ) (maxBytes : ℤ) : ℕ :=
  min body (wrap (maxBytes + 1)).toNat

namespace CacheState

def goto (s : CacheState) (storage : ℕ) (next : Storage) : CacheState :=
  { s with storages := s.storages.set storage next }

/-- The check that `CreateBodyStorageFromReader` begins with; without a file the body is read to
memory. -/
def begun (cfg : DiskCacheConfig) (s : CacheState) (body : ℕ) (contentLength maxBytes : ℤ) :
    Storage :=
  let size := limited body maxBytes
  if cfg.enabled ∧ contentLength > 0 ∧ contentLength ≥ getDiskCacheThresholdBytes cfg ∧
      isDiskCacheAvailable cfg s.currentDiskUsageBytes contentLength then
    .writing 0 size (size > maxBytes)
  else if size > maxBytes then .done
  else .buffered size

/-- The check of `CreateBodyStorage`; without a file the body stays in memory. -/
def checked (cfg : DiskCacheConfig) (s : CacheState) (size : ℕ) : Storage :=
  if cfg.enabled ∧ size ≥ getDiskCacheThresholdBytes cfg ∧
      isDiskCacheAvailable cfg s.currentDiskUsageBytes size then
    .writing 0 size false
  else .done

end CacheState

/-- One check, write, removal or change of the accounted usage. -/
def step (cfg : DiskCacheConfig) (s : CacheState) : CacheStep → Option CacheState
  | .createBodyStorageFromReader body contentLength maxBytes =>
      some { s with storages := s.storages ++ [s.begun cfg body contentLength maxBytes] }
  | .createBodyStorage body => some { s with storages := s.storages ++ [.buffered body] }
  | .check storage =>
      match s.storages[storage]? with
      | some (.buffered size) => some (s.goto storage (s.checked cfg size))
      | _ => none
  | .write storage chunk ok =>
      match s.storages[storage]? with
      | some (.writing written rest tooLarge) =>
          if chunk ≤ rest then
            -- a file that cannot be written is removed
            some (s.goto storage
              (if ok then .writing (written + chunk) (rest - chunk) tooLarge else .done))
          else none
      | _ => none
  | .incrementDiskFiles storage ok =>
      match s.storages[storage]? with
      | some (.writing written 0 tooLarge) =>
          -- the body is too large, or the file cannot be rewound: it is removed and not accounted
          if tooLarge ∨ ok = false then some (s.goto storage .done)
          else
            some
              { (s.goto storage (.opened written)) with
                currentDiskUsageBytes := s.currentDiskUsageBytes + written }
      | _ => none
  | .close storage =>
      match s.storages[storage]? with
      | some (.opened size) => some (s.goto storage (.removed size))
      | _ => none
  | .decrementDiskFiles storage =>
      match s.storages[storage]? with
      | some (.removed size) =>
          some
            { (s.goto storage .done) with
              currentDiskUsageBytes := s.currentDiskUsageBytes - size }
      | _ => none

def system (cfg : DiskCacheConfig) : System CacheState CacheStep where
  step := step cfg

def CacheState.initial : CacheState where
  currentDiskUsageBytes := 0
  storages := []

/-! ## What fits -/

namespace Storage

/-- The bytes in the file now, and when all is written. -/
def held : Storage → ℤ
  | .writing written _ _ => written
  | .opened size => size
  | _ => 0

def toHold : Storage → ℤ
  | .writing written rest _ => written + rest
  | .opened size => size
  | _ => 0

/-- The bytes that are accounted now, and when all is written. -/
def accounted : Storage → ℤ
  | .opened size => size
  | .removed size => size
  | _ => 0

def toAccount : Storage → ℤ
  | .writing written rest tooLarge => if tooLarge then 0 else written + rest
  | .opened size => size
  | .removed size => size
  | _ => 0

end Storage

/-- Neither the accounted usage nor the bytes in the files exceed the configured maximum. -/
structure WithinMax (cfg : DiskCacheConfig) (s : CacheState) : Prop where
  usage : s.currentDiskUsageBytes ≤ getDiskCacheMaxSizeBytes cfg
  held : total Storage.held s.storages ≤ getDiskCacheMaxSizeBytes cfg

/-- The step begins a creation or lets one write. -/
def CacheStep.admits : CacheStep → Bool
  | .createBodyStorageFromReader .. => true
  | .createBodyStorage _ => true
  | .check _ => true
  | _ => false

/-- Only the creations that write and the closings go on. -/
def finishing (cfg : DiskCacheConfig) : System CacheState CacheStep where
  step s action := if action.admits then none else step cfg s action

/-- However the writing creations and the closings go on, the maximum is not exceeded. -/
def Safe (cfg : DiskCacheConfig) (s : CacheState) : Prop :=
  ∀ steps after, (finishing cfg).run s steps = some after → WithinMax cfg after

/-- What the storage will come to and what is there fit. -/
def HasRoom (cfg : DiskCacheConfig) (s : CacheState) (storage : Storage) : Prop :=
  total Storage.toHold s.storages + storage.toHold ≤ getDiskCacheMaxSizeBytes cfg ∧
    total Storage.toAccount s.storages + storage.toAccount ≤ getDiskCacheMaxSizeBytes cfg

/-- The length of a body that is in memory and not yet checked. -/
def CacheState.body (s : CacheState) (storage : ℕ) : Option ℕ :=
  match s.storages[storage]? with
  | some (.buffered size) => some size
  | _ => none

/-- Where a creation may write, its whole body has room beside the whole files of the others. -/
def Fits (cfg : DiskCacheConfig) (s : CacheState) : CacheStep → Prop
  | .createBodyStorageFromReader body contentLength maxBytes =>
      HasRoom cfg s (s.begun cfg body contentLength maxBytes)
  | .check storage => ∀ size ∈ s.body storage, HasRoom cfg s (s.checked cfg size)
  | _ => True

instance (cfg : DiskCacheConfig) (s : CacheState) (storage : Storage) :
    Decidable (HasRoom cfg s storage) :=
  inferInstanceAs (Decidable (_ ∧ _))

instance (cfg : DiskCacheConfig) (s : CacheState) : ∀ action, Decidable (Fits cfg s action)
  | .createBodyStorageFromReader body contentLength maxBytes =>
      inferInstanceAs (Decidable (HasRoom cfg s (s.begun cfg body contentLength maxBytes)))
  | .check storage =>
      inferInstanceAs (Decidable (∀ size ∈ s.body storage, HasRoom cfg s (s.checked cfg size)))
  | .createBodyStorage _ => inferInstanceAs (Decidable True)
  | .write .. => inferInstanceAs (Decidable True)
  | .incrementDiskFiles .. => inferInstanceAs (Decidable True)
  | .close _ => inferInstanceAs (Decidable True)
  | .decrementDiskFiles _ => inferInstanceAs (Decidable True)

/-- The accounted usage is that of the files that are accounted. -/
def Counted (s : CacheState) : Prop :=
  s.currentDiskUsageBytes = total Storage.accounted s.storages

/-- What is there fits when all is written and accounted. -/
structure Reserved (cfg : DiskCacheConfig) (s : CacheState) : Prop where
  toHold : total Storage.toHold s.storages ≤ getDiskCacheMaxSizeBytes cfg
  toAccount : total Storage.toAccount s.storages ≤ getDiskCacheMaxSizeBytes cfg

namespace Storage

theorem held_le_toHold (storage : Storage) : storage.held ≤ storage.toHold := by
  cases storage with
  | writing written rest tooLarge =>
      show (written : ℤ) ≤ written + rest
      omega
  | buffered size | opened size | removed size | done => exact Int.le_refl _

theorem accounted_le_toAccount (storage : Storage) : storage.accounted ≤ storage.toAccount := by
  cases storage with
  | writing written rest tooLarge =>
      cases tooLarge with
      | true => exact Int.le_refl 0
      | false =>
          show (0 : ℤ) ≤ written + rest
          omega
  | buffered size | opened size | removed size | done => exact Int.le_refl _

theorem toAccount_nonneg (storage : Storage) : 0 ≤ storage.toAccount := by
  cases storage with
  | writing written rest tooLarge =>
      cases tooLarge with
      | true => exact Int.le_refl 0
      | false =>
          show (0 : ℤ) ≤ written + rest
          omega
  | buffered size | done => exact Int.le_refl 0
  | opened size | removed size => exact Int.natCast_nonneg size

theorem toHold_nonneg (storage : Storage) : 0 ≤ storage.toHold := by
  cases storage with
  | writing written rest tooLarge =>
      show (0 : ℤ) ≤ written + rest
      omega
  | buffered size | removed size | done => exact Int.le_refl 0
  | opened size => exact Int.natCast_nonneg size

end Storage

/-! ## What a step changes -/

section

variable {cfg : DiskCacheConfig} {s s' : CacheState} {action : CacheStep}

/-- A creation that writes and a closing go on in their own storage, which comes to nothing more,
and account what they account of it. -/
theorem finishing_step (hstep : step cfg s action = some s') (hadmits : action.admits = false) :
    ∃ storage x y, s.storages[storage]? = some x ∧ s'.storages = s.storages.set storage y ∧
      s'.currentDiskUsageBytes = s.currentDiskUsageBytes - x.accounted + y.accounted ∧
      y.toHold ≤ x.toHold ∧ y.toAccount ≤ x.toAccount := by
  cases action with
  | createBodyStorageFromReader | createBodyStorage | check => cases hadmits
  | write storage chunk ok =>
      rw [step] at hstep
      split at hstep
      case h_1 written rest tooLarge hx =>
        simp only [Option.ite_none_right_eq_some, Option.some.injEq] at hstep
        obtain ⟨hchunk, rfl⟩ := hstep
        refine ⟨storage, _, _, hx, rfl, ?_, ?_⟩
        · cases ok <;> simp [CacheState.goto, Storage.accounted]
        · cases ok with
          | true =>
              have hsum : (written : ℤ) + chunk + (rest - chunk : ℕ) = written + rest := by omega
              cases tooLarge <;> simp [Storage.toHold, Storage.toAccount, hsum]
          | false => exact ⟨Storage.toHold_nonneg _, Storage.toAccount_nonneg _⟩
      case h_2 => cases hstep
  | incrementDiskFiles storage ok =>
      rw [step] at hstep
      split at hstep
      case h_1 written tooLarge hx =>
        split at hstep
        case isTrue =>
          obtain rfl := Option.some.inj hstep
          refine ⟨storage, _, .done, hx, rfl, ?_, Storage.toHold_nonneg _,
            Storage.toAccount_nonneg _⟩
          simp [CacheState.goto, Storage.accounted]
        case isFalse hwritten =>
          obtain rfl := Option.some.inj hstep
          refine ⟨storage, _, .opened written, hx, rfl, ?_, ?_, ?_⟩
          · simp [Storage.accounted]
          · simp [Storage.toHold]
          · obtain ⟨hlarge, -⟩ := not_or.1 hwritten
            simp [Storage.toAccount, hlarge]
      case h_2 => cases hstep
  | close storage =>
      rw [step] at hstep
      split at hstep
      case h_1 size hx =>
        obtain rfl := Option.some.inj hstep
        refine ⟨storage, _, .removed size, hx, rfl, ?_, Storage.toHold_nonneg _, Int.le_refl _⟩
        simp [CacheState.goto, Storage.accounted]
      case h_2 => cases hstep
  | decrementDiskFiles storage =>
      rw [step] at hstep
      split at hstep
      case h_1 size hx =>
        obtain rfl := Option.some.inj hstep
        refine ⟨storage, _, .done, hx, rfl, ?_, Int.le_refl _, Storage.toAccount_nonneg _⟩
        simp [Storage.accounted]
      case h_2 => cases hstep

/-- A storage that begins, or one in memory that is checked, adds what it will come to. -/
theorem admitting_step (hstep : step cfg s action = some s') (hadmits : action.admits = true) :
    ∃ storage : Storage, storage.accounted = 0 ∧
      s'.currentDiskUsageBytes = s.currentDiskUsageBytes ∧
      (∀ f : Storage → ℤ, (∀ size, f (.buffered size) = 0) →
        total f s'.storages = total f s.storages + f storage) ∧
      (Reserved cfg s → (HasRoom cfg s storage ↔ Fits cfg s action)) := by
  cases action with
  | createBodyStorageFromReader body contentLength maxBytes =>
      obtain rfl := Option.some.inj hstep
      refine ⟨s.begun cfg body contentLength maxBytes, ?_, rfl, fun f _ => ?_, fun _ => Iff.rfl⟩
      · simp only [CacheState.begun]
        split
        case isTrue => rfl
        case isFalse => split <;> rfl
      · simp
  | createBodyStorage body =>
      obtain rfl := Option.some.inj hstep
      refine ⟨.buffered body, rfl, rfl, fun f _ => by simp, fun hreserved => ?_⟩
      refine iff_of_true ⟨?_, ?_⟩ trivial
      · simpa [Storage.toHold] using hreserved.toHold
      · simpa [Storage.toAccount] using hreserved.toAccount
  | check storage =>
      rw [step] at hstep
      split at hstep
      case h_1 size hx =>
        obtain rfl := Option.some.inj hstep
        refine ⟨s.checked cfg size, ?_, rfl, fun f hf => ?_, fun _ => ?_⟩
        · rw [CacheState.checked]
          split <;> rfl
        · -- in memory the body has counted for nothing
          show total f (s.storages.set storage _) = _
          rw [Pool.total_set hx, hf]
          omega
        · have hbody : s.body storage = some size := by rw [CacheState.body, hx]
          simp [Fits, hbody]
      case h_2 => cases hstep
  | write | incrementDiskFiles | close | decrementDiskFiles => cases hadmits

theorem counted_step (hstep : step cfg s action = some s') (hs : Counted s) : Counted s' := by
  cases hadmits : action.admits with
  | true =>
      obtain ⟨storage, hnone, husage, htotal, -⟩ := admitting_step hstep hadmits
      rw [Counted, husage, hs, htotal _ fun _ => rfl, hnone, add_zero]
  | false =>
      obtain ⟨storage, x, y, hx, hset, husage, -⟩ := finishing_step hstep hadmits
      rw [Counted, husage, hs, hset, Pool.total_set hx]

/-- What is reserved stays so while only writing creations and closings go on. -/
theorem reserved_finishing (hstep : step cfg s action = some s') (hadmits : action.admits = false)
    (hs : Reserved cfg s) : Reserved cfg s' := by
  obtain ⟨storage, x, y, hx, hset, -, hhold, haccount⟩ := finishing_step hstep hadmits
  obtain ⟨hheld, haccounted⟩ := hs
  constructor
  · rw [hset, Pool.total_set hx]
    omega
  · rw [hset, Pool.total_set hx]
    omega

/-- A step keeps what is there within the maximum exactly if it lets no creation write without room.
-/
theorem reserved_step_iff (hstep : step cfg s action = some s') (hs : Reserved cfg s) :
    Reserved cfg s' ↔ Fits cfg s action := by
  cases hadmits : action.admits with
  | true =>
      obtain ⟨storage, -, -, htotal, hfits⟩ := admitting_step hstep hadmits
      rw [← hfits hs, HasRoom, ← htotal _ fun _ => rfl, ← htotal _ fun _ => rfl]
      exact ⟨fun h => ⟨h.toHold, h.toAccount⟩, fun h => ⟨h.1, h.2⟩⟩
  | false =>
      refine iff_of_true (reserved_finishing hstep hadmits hs) ?_
      cases action with
      | createBodyStorageFromReader | createBodyStorage | check => cases hadmits
      | write | incrementDiskFiles | close | decrementDiskFiles => trivial

end

/-! ## Runs of creations and closings -/

section

variable {cfg : DiskCacheConfig} {s s' : CacheState}

theorem Reserved.withinMax (hs : Reserved cfg s) (hcounted : Counted s) : WithinMax cfg s := by
  have haccounted : total Storage.accounted s.storages ≤ total Storage.toAccount s.storages :=
    List.sum_le_sum fun storage _ => storage.accounted_le_toAccount
  have hheld : total Storage.held s.storages ≤ total Storage.toHold s.storages :=
    List.sum_le_sum fun storage _ => storage.held_le_toHold
  refine ⟨?_, hheld.trans hs.toHold⟩
  rw [hcounted]
  exact haccounted.trans hs.toAccount

/-- The bytes that are or will be in the files and the accounts are the same. -/
def SameEnd (s t : CacheState) : Prop :=
  total Storage.toHold t.storages = total Storage.toHold s.storages ∧
    total Storage.toAccount t.storages = total Storage.toAccount s.storages

/-- Of the storage, no more bytes are to come to the file or the account. -/
def Storage.Settled (storage : Storage) : Prop :=
  storage.held = storage.toHold ∧ storage.accounted = storage.toAccount

theorem finishing_run_cons {action : CacheStep} (hstep : step cfg s action = some s')
    (hadmits : action.admits = false) (steps : List CacheStep) :
    (finishing cfg).run s (action :: steps) = (finishing cfg).run s' steps := by
  refine System.run_of_step ?_ steps
  show (if action.admits then none else step cfg s action) = some s'
  rw [hadmits, hstep]
  rfl

/-- What a creation has still to write can be written, and accounted where the body is not too
large. -/
theorem settle_storage {storage : ℕ} {x : Storage} (hs : Counted s)
    (hx : s.storages[storage]? = some x) :
    ∃ steps t y, (finishing cfg).run s steps = some t ∧ t.storages = s.storages.set storage y ∧
      y.Settled ∧ Counted t ∧ SameEnd s t := by
  cases x with
  | writing written rest tooLarge =>
      have hwrite : step cfg s (.write storage rest true) =
          some (s.goto storage (.writing (written + rest) 0 tooLarge)) := by
        simp [step, hx]
      have hcounted := counted_step hwrite hs
      cases tooLarge with
      | true =>
          refine ⟨[.write storage rest true], _, _, finishing_run_cons hwrite rfl [], rfl,
            ⟨?_, rfl⟩, hcounted, ?_, ?_⟩
          · simp [Storage.held, Storage.toHold]
          · simp [CacheState.goto, Pool.total_set hx, Storage.toHold]
          · simp [CacheState.goto, Pool.total_set hx, Storage.toAccount]
      | false =>
          have hy : (s.goto storage (.writing (written + rest) 0 false)).storages[storage]? =
              some (.writing (written + rest) 0 false) :=
            List.getElem?_set_self (List.getElem?_eq_some_iff.1 hx).1
          have haccount : step cfg (s.goto storage (.writing (written + rest) 0 false))
              (.incrementDiskFiles storage true) = some
                { currentDiskUsageBytes := s.currentDiskUsageBytes + (written + rest : ℕ)
                  storages := s.storages.set storage (.opened (written + rest)) } := by
            rw [step, hy]
            simp [CacheState.goto]
          refine ⟨[.write storage rest true, .incrementDiskFiles storage true], _,
            .opened (written + rest), ?_, rfl, ⟨rfl, rfl⟩, counted_step haccount hcounted, ?_, ?_⟩
          · rw [finishing_run_cons hwrite rfl, finishing_run_cons haccount rfl, System.run_nil]
          · simp [Pool.total_set hx, Storage.toHold]
          · simp [Pool.total_set hx, Storage.toAccount]
  | buffered size | opened size | removed size | done =>
      exact ⟨[], s, _, rfl, (Pool.set_self hx).symm, ⟨rfl, rfl⟩, hs, rfl, rfl⟩

/-- The maximum is not exceeded however the creations and closings go on exactly if all fits when it
is written and accounted. -/
theorem safe_iff (hs : Counted s) : Safe cfg s ↔ Reserved cfg s := by
  constructor
  · intro hsafe
    -- everything is written and accounted, and that is still within the maximum
    obtain ⟨steps, t, hrun, hsettled, hcounted, hhold, haccount⟩ :=
      System.drain_run (M := finishing cfg) CacheState.storages Storage.Settled SameEnd
        (fun s => ⟨rfl, rfl⟩) (fun hst htu => ⟨htu.1.trans hst.1, htu.2.trans hst.2⟩)
        (fun hs hx => settle_storage hs hx) hs
    obtain ⟨husage, hheld⟩ := hsafe steps t hrun
    have hheld' : total Storage.held t.storages = total Storage.toHold t.storages :=
      congrArg List.sum (List.map_congr_left fun storage hmem => (hsettled storage hmem).1)
    have haccounted : total Storage.accounted t.storages = total Storage.toAccount t.storages :=
      congrArg List.sum (List.map_congr_left fun storage hmem => (hsettled storage hmem).2)
    constructor
    · rwa [← hhold, ← hheld']
    · rwa [← haccount, ← haccounted, ← hcounted]
  · intro hreserved steps after hrun
    have hkept : Reserved cfg after ∧ Counted after :=
      System.kept_run (M := finishing cfg) (I := fun t => Reserved cfg t ∧ Counted t)
        (fun {s action s'} hstep ht => by
          have hstep' : action.admits = false ∧ step cfg s action = some s' := by
            simpa [finishing] using hstep
          exact ⟨reserved_finishing hstep'.2 hstep'.1 ht.1, counted_step hstep'.2 ht.2⟩)
        ⟨hreserved, hs⟩ hrun
    exact hkept.1.withinMax hkept.2

/-- The maximum is not exceeded in all states of a run, however the creations and closings go on,
exactly if it is not negative and creations write only what has room. -/
theorem disk_usage_within_max_iff (cfg : DiskCacheConfig) (steps : List CacheStep)
    (after : CacheState) (hrun : (system cfg).run .initial steps = some after) :
    (∀ before later s, steps = before ++ later →
        (system cfg).run .initial before = some s → Safe cfg s) ↔
      0 ≤ getDiskCacheMaxSizeBytes cfg ∧ (system cfg).Along (Fits cfg) .initial steps := by
  have hinitial : Counted .initial := rfl
  have hreached : Reserved cfg .initial → ((∀ before later s, steps = before ++ later →
      (system cfg).run .initial before = some s → Safe cfg s) ↔
        (system cfg).Along (Fits cfg) .initial steps) := fun hreserved =>
    System.reached_iff_along (P := fun s => Counted s ∧ Reserved cfg s)
      (fun hs => (safe_iff hs.1).2 hs.2)
      (fun hstep hs hfits => ⟨counted_step hstep hs.1, (reserved_step_iff hstep hs.2).2 hfits⟩)
      (fun hstep hs hsafe => (reserved_step_iff hstep hs.2).1
        ((safe_iff (counted_step hstep hs.1)).1 hsafe))
      ⟨hinitial, hreserved⟩ hrun
  constructor
  · intro hall
    have hreserved : Reserved cfg .initial := (safe_iff hinitial).1
      (hall [] steps .initial rfl rfl)
    exact ⟨hreserved.toHold, (hreached hreserved).1 hall⟩
  · rintro ⟨hmax, halong⟩
    exact (hreached ⟨hmax, hmax⟩).2 halong

end

def enabledConfig : DiskCacheConfig where
  enabled := true
  thresholdMB := 10
  maxSizeMB := 1024

/-- Two uploads in turn, of 600 and of 400 megabytes, and the end of the first one. -/
def uploadsInTurn : List CacheStep :=
  [.createBodyStorageFromReader 629145600 629145600 1073741824, .write 0 629145600 true,
    .incrementDiskFiles 0 true, .createBodyStorageFromReader 419430400 419430400 1073741824,
    .write 1 419430400 true, .incrementDiskFiles 1 true, .close 0, .decrementDiskFiles 0]

/-- Two uploads of 600 megabytes that are checked before one of them is accounted. -/
def uploadsAtOnce : List CacheStep :=
  [.createBodyStorageFromReader 629145600 629145600 1073741824,
    .createBodyStorageFromReader 629145600 629145600 1073741824, .write 0 629145600 true,
    .write 1 629145600 true, .incrementDiskFiles 0 true, .incrementDiskFiles 1 true]

theorem uploads_in_turn_fit :
    ∃ s, (system enabledConfig).run .initial uploadsInTurn = some s ∧ Safe enabledConfig s :=
  ⟨_, rfl, (disk_usage_within_max_iff enabledConfig uploadsInTurn _ rfl).2
    ⟨by decide, by decide⟩ uploadsInTurn [] _ (List.append_nil _).symm rfl⟩

theorem uploads_at_once_exceed_max :
    ∃ s, (system enabledConfig).run .initial uploadsAtOnce = some s ∧
      getDiskCacheMaxSizeBytes enabledConfig < s.currentDiskUsageBytes ∧
        getDiskCacheMaxSizeBytes enabledConfig < total Storage.held s.storages :=
  ⟨_, rfl, by decide, by decide⟩

end DiskCache

end NewApi.Model
