import NewApi.Lib.Pool

/-!
# Quota movements with a cached counter

`IncreaseUserQuota`, `DecreaseTokenQuota` and their siblings change one counter in two
places: a statement moves the stored value, and a goroutine started before it moves the
cached value by `RedisHIncrBy`, which first asks for the key's remaining life and then adds
in a second round trip.  This file describes one such call and the balance kept over a pool
of calls.
-/

namespace NewApi.Model

open NewApi.Lib

/-- The progress of `RedisHIncrBy`: before the `TTL` command, before the pipelined
`HINCRBY`, or ended. -/
inductive HIncrBy where
  | ttl
  | exec
  | finished
deriving DecidableEq, Repr

/-- A quota call in progress: the signed amount, whether it goes to the batch store instead
of the database, the state of its cache operation, and whether its statement (or its record)
has been made. -/
structure QuotaMove where
  delta : ℤ
  batched : Bool
  cacheOp : HIncrBy
  dbDone : Bool
deriving DecidableEq, Repr

namespace QuotaMove

/-- A call that has just been made. -/
def begin_ (delta : ℤ) (batched : Bool) : QuotaMove where
  delta := delta
  batched := batched
  cacheOp := .ttl
  dbDone := false

/-- The next Redis command of the call, on the cached field (`none` while the key is
absent).  A missing key ends the operation at the `TTL` command; `HINCRBY` on a key that
vanished since then creates the field from zero. -/
def cacheStep (move : QuotaMove) (field : Option ℤ) : Option (QuotaMove × Option ℤ) :=
  match move.cacheOp with
  | .ttl =>
      if field.isSome then some ({ move with cacheOp := .exec }, field)
      else some ({ move with cacheOp := .finished }, field)
  | .exec => some ({ move with cacheOp := .finished }, some (field.getD 0 + move.delta))
  | .finished => none

/-- The amount whose cache operation has not ended. -/
def queued (move : QuotaMove) : ℤ :=
  if move.cacheOp = .finished then 0 else move.delta

/-- The amount whose statement has not been executed. -/
def outstanding (move : QuotaMove) : ℤ :=
  if move.dbDone then 0 else move.delta

/-- Both halves of the call have been carried out. -/
def Settled (move : QuotaMove) : Prop :=
  move.cacheOp = .finished ∧ move.dbDone = true

instance (move : QuotaMove) : Decidable move.Settled :=
  inferInstanceAs (Decidable (_ ∧ _))

@[simp] theorem queued_begin (delta : ℤ) (batched : Bool) :
    (begin_ delta batched).queued = delta := rfl

@[simp] theorem outstanding_begin (delta : ℤ) (batched : Bool) :
    (begin_ delta batched).outstanding = delta := rfl

@[simp] theorem outstanding_done (move : QuotaMove) :
    outstanding { move with dbDone := true } = 0 := rfl

@[simp] theorem queued_done (move : QuotaMove) :
    queued { move with dbDone := true } = move.queued := rfl

@[simp] theorem queued_finished (move : QuotaMove) :
    queued { move with cacheOp := .finished } = 0 := rfl

@[simp] theorem outstanding_cacheOp (move : QuotaMove) (op : HIncrBy) :
    outstanding { move with cacheOp := op } = move.outstanding := rfl

theorem queued_of_ne {move : QuotaMove} (hop : move.cacheOp ≠ .finished) :
    move.queued = move.delta := by
  simp [queued, hop]

theorem outstanding_of_not_done {move : QuotaMove} (hdone : move.dbDone = false) :
    move.outstanding = move.delta := by
  simp [outstanding, hdone]

theorem queued_of_settled {move : QuotaMove} (hsettled : move.Settled) : move.queued = 0 := by
  simp [queued, hsettled.1]

theorem outstanding_of_settled {move : QuotaMove} (hsettled : move.Settled) :
    move.outstanding = 0 := by
  simp [outstanding, hsettled.2]

/-- Inversion of a cache step: the key was found, the key was missing, or the amount was
added to the field. -/
theorem cacheStep_cases {move move' : QuotaMove} {field field' : Option ℤ}
    (hstep : move.cacheStep field = some (move', field')) :
    (move.cacheOp = .ttl ∧ field.isSome ∧ move' = { move with cacheOp := .exec } ∧
      field' = field) ∨
    (move.cacheOp = .ttl ∧ field = none ∧ move' = { move with cacheOp := .finished } ∧
      field' = none) ∨
    (move.cacheOp = .exec ∧ move' = { move with cacheOp := .finished } ∧
      field' = some (field.getD 0 + move.delta)) := by
  unfold cacheStep at hstep
  cases hop : move.cacheOp with
  | ttl =>
      cases field with
      | none =>
          obtain ⟨rfl, rfl⟩ : _ = move' ∧ _ = field' := by simpa [hop] using hstep
          simp
      | some value =>
          obtain ⟨rfl, rfl⟩ : _ = move' ∧ _ = field' := by simpa [hop] using hstep
          simp
  | exec =>
      obtain ⟨rfl, rfl⟩ : _ = move' ∧ _ = field' := by simpa [hop] using hstep
      simp
  | finished => simp [hop] at hstep

end QuotaMove

/-- What the cached value may be at most: the stored value, with the amounts still owed to
it by some reckoning, less the amounts the cache has not seen. -/
def slack (owed : QuotaMove → ℤ) (value : ℤ) (moves : List QuotaMove) : ℤ :=
  value + total owed moves - total QuotaMove.queued moves

/-- The cached value, where there is one, is within the slack. -/
def WithinSlack (owed : QuotaMove → ℤ) (value : ℤ) (field : Option ℤ)
    (moves : List QuotaMove) : Prop :=
  ∀ cached, field = some cached → cached ≤ slack owed value moves

section

variable {owed : QuotaMove → ℤ} {value : ℤ} {field : Option ℤ} {moves : List QuotaMove}

/-- A step of one call moves the slack by the change of its own amounts. -/
theorem slack_set {i : ℕ} {move : QuotaMove} (hmove : moves[i]? = some move)
    (move' : QuotaMove) :
    slack owed value (moves.set i move') =
      slack owed value moves + (owed move' - owed move) - (move'.queued - move.queued) := by
  simp only [slack, Pool.total_set hmove]
  omega

/-- A new call owes as much to the stored value as to the cached one. -/
theorem withinSlack_begin {delta : ℤ} {batched : Bool}
    (howed : owed (QuotaMove.begin_ delta batched) = delta)
    (hwithin : WithinSlack owed value field moves) :
    WithinSlack owed value field (moves ++ [QuotaMove.begin_ delta batched]) := by
  intro cached hcached
  have hbound := hwithin cached hcached
  simp only [slack, Pool.total_append, Pool.total_cons, Pool.total_nil, howed,
    QuotaMove.queued_begin] at hbound ⊢
  omega

/-- The statement of a call pays at least what was owed for it. -/
theorem withinSlack_store {i : ℕ} {move : QuotaMove} (hmove : moves[i]? = some move)
    (howed : owed move ≤ move.delta + owed { move with dbDone := true })
    (hwithin : WithinSlack owed value field moves) :
    WithinSlack owed (value + move.delta) field
      (moves.set i { move with dbDone := true }) := by
  intro cached hcached
  have hbound := hwithin cached hcached
  have hmoved : slack owed value (moves.set i { move with dbDone := true }) = _ :=
    slack_set hmove { move with dbDone := true }
  simp only [slack, QuotaMove.queued_done] at hbound hmoved ⊢
  omega

/-- A cache step keeps the cached value within the slack, if the write gives up nothing that
is owed, and a field created from zero is within the slack too. -/
theorem withinSlack_cacheStep {i : ℕ} {move move' : QuotaMove} {field' : Option ℤ}
    (hmove : moves[i]? = some move) (hstep : move.cacheStep field = some (move', field'))
    (hfound : move.cacheOp = .ttl → owed { move with cacheOp := .exec } = owed move)
    (howed : move.cacheOp = .exec → owed move ≤ owed { move with cacheOp := .finished })
    (hfresh : move.cacheOp = .exec → field = none → 0 ≤ slack owed value moves)
    (hwithin : WithinSlack owed value field moves) :
    WithinSlack owed value field' (moves.set i move') := by
  intro cached hcached
  have hmoved : slack owed value (moves.set i move') = _ := slack_set hmove move'
  rcases QuotaMove.cacheStep_cases hstep with
    ⟨hop, -, rfl, rfl⟩ | ⟨-, -, -, rfl⟩ | ⟨hop, rfl, rfl⟩
  · have hbound := hwithin cached hcached
    have hfound' := hfound hop
    have hqueued : move.queued = move.delta := QuotaMove.queued_of_ne (by simp [hop])
    have hqueued' : QuotaMove.queued { move with cacheOp := .exec } = move.delta := rfl
    omega
  · simp at hcached
  · have howed' := howed hop
    have hqueued : move.queued = move.delta := QuotaMove.queued_of_ne (by simp [hop])
    have hzero := QuotaMove.queued_finished move
    cases hfield : field with
    | none =>
        have hslack := hfresh hop hfield
        obtain rfl : _ = cached := by simpa [hfield] using hcached
        omega
    | some old =>
        have hbound := hwithin old hfield
        obtain rfl : _ = cached := by simpa [hfield] using hcached
        omega

end

end NewApi.Model
