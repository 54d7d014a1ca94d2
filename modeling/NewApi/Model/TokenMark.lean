import NewApi.Lib.Integers
import NewApi.Model.TokenRow

/-!
# The exhausted mark of a token

`ValidateUserToken` reads a token and, where nothing remains of it, stores the status "exhausted"
with a second statement. What remains is moved by the deposits, charges and refunds of other
requests, which are written at once or, with `BatchUpdateEnabled`, through the store of a node.
-/

namespace NewApi.Model

open NewApi.Lib NewApi.Lib.Strings

namespace TokenMark

/-! ## Requests on one token -/

def keyPrefix (key : String) : String :=
  String.ofList (key.toList.take 3)

def keySuffix (key : String) : String :=
  String.ofList (key.toList.drop (key.length - 3))

/-- What comes of a validation: an error can come with a status that is stored. -/
inductive Validation
  | accepted
  | rejected (message : String) (status : Option ℤ)
deriving DecidableEq

/-- `ValidateUserToken` on the token that it has read, without Redis. -/
def validateUserToken (key : String) (token : Token) (now : ℤ) : Validation :=
  if key = "" then .rejected "未提供令牌" none
  else if token.status = TokenStatusExhausted then
    .rejected ("该令牌额度已用尽 TokenStatusExhausted[sk-" ++ keyPrefix key ++ "***" ++
      keySuffix key ++ "]") none
  else if token.status = TokenStatusExpired then .rejected "该令牌已过期" none
  else if token.status ≠ TokenStatusEnabled then .rejected "该令牌状态不可用" none
  else if token.expiredTime ≠ -1 ∧ token.expiredTime < now then
    .rejected "该令牌已过期" (some TokenStatusExpired)
  else if token.unlimitedQuota = false ∧ token.remainQuota ≤ 0 then
    .rejected ("[sk-" ++ keyPrefix key ++ "***" ++ keySuffix key ++
      "] 该令牌额度已用尽 !token.UnlimitedQuota && token.RemainQuota = " ++ itoa token.remainQuota)
      (some TokenStatusExhausted)
  else .accepted

/-- Where a request stands between two statements. `held` is what it has taken from the token and
not given back. -/
inductive TokenRequest
  | marking (status : ℤ)
  | holding (held : ℤ)
  | preConsuming (held quota : ℤ)
  | ended
deriving DecidableEq

/-- The row, the amounts in the stores of the nodes, the amounts that `batchUpdate` has taken out of
a store and not yet written, and the requests. -/
structure MarkState where
  row : Token
  stores : List ℤ
  writing : List ℤ
  requests : List TokenRequest
deriving DecidableEq

/-- The steps of requests and nodes; a statement of a request may fail. -/
inductive MarkStep
  | validateUserToken (key : String) (now : ℤ) (ok : Bool)
  | selectUpdate (request : ℕ) (ok : Bool)
  | preConsumeTokenQuota (request : ℕ) (quota : ℤ) (ok : Bool)
  | decreaseTokenQuota (request node : ℕ) (ok : Bool)
  | postConsumeQuota (request node : ℕ) (quota : ℤ) (ok : Bool)
  | finish (request : ℕ)
  | batchUpdate (node : ℕ)
  | increaseTokenQuota (batch : ℕ)
deriving DecidableEq

namespace MarkState

def goto (s : MarkState) (request : ℕ) (next : TokenRequest) : MarkState :=
  { s with requests := s.requests.set request next }

/-- `IncreaseTokenQuota` by an amount, or `DecreaseTokenQuota` by its negative. -/
def moveQuota (batchUpdateEnabled : Bool) (s : MarkState) (node : ℕ) (delta : ℤ) :
    Option MarkState :=
  if batchUpdateEnabled then
    s.stores[node]?.map fun value => { s with stores := s.stores.set node (value + delta) }
  else some { s with row := TokenState.moveRow s.row delta }

/-- The request that a validation leaves. -/
def begun (s : MarkState) (key : String) (now : ℤ) (ok : Bool) : TokenRequest :=
  if ok then
    match TokenMark.validateUserToken key s.row now with
    | .accepted => .holding 0
    | .rejected _ (some status) => .marking status
    | .rejected _ none => .ended
  else .ended

end MarkState

/-- One statement or one access to a store.  A request gives back at most what it has taken. -/
def step (batchUpdateEnabled : Bool) (s : MarkState) : MarkStep → Option MarkState
  | .validateUserToken key now ok =>
      some { s with requests := s.requests ++ [s.begun key now ok] }
  | .selectUpdate request ok =>
      match s.requests[request]? with
      | some (.marking status) =>
          let row := if ok then { s.row with status := status } else s.row
          some { s with row := row, requests := s.requests.set request .ended }
      | _ => none
  | .preConsumeTokenQuota request quota ok =>
      match s.requests[request]? with
      | some (.holding held) =>
          if quota < 0 ∨ ok = false ∨ (s.row.unlimitedQuota = false ∧ s.row.remainQuota < quota) then
            some s
          else some (s.goto request (.preConsuming held quota))
      | _ => none
  | .decreaseTokenQuota request node ok =>
      match s.requests[request]? with
      | some (.preConsuming held quota) =>
          if ok then
            (s.goto request (.holding (held + quota))).moveQuota batchUpdateEnabled node (-quota)
          else some (s.goto request (.holding held))
      | _ => none
  | .postConsumeQuota request node quota ok =>
      match s.requests[request]? with
      | some (.holding held) =>
          if 0 ≤ held + quota then
            if ok then
              (s.goto request (.holding (held + quota))).moveQuota batchUpdateEnabled node (-quota)
            else some s
          else none
      | _ => none
  | .finish request =>
      match s.requests[request]? with
      | some (.holding _) => some (s.goto request .ended)
      | _ => none
  | .batchUpdate node =>
      s.stores[node]?.map fun value =>
        { s with stores := s.stores.set node 0, writing := s.writing ++ [value] }
  | .increaseTokenQuota batch =>
      s.writing[batch]?.map fun value =>
        { s with row := TokenState.moveRow s.row value, writing := s.writing.set batch 0 }

def system (batchUpdateEnabled : Bool) : System MarkState MarkStep where
  step := step batchUpdateEnabled

/-- A token without requests, and nodes with nothing recorded of it. -/
def MarkState.initial (row : Token) (nodes : ℕ) : MarkState where
  row := row
  stores := List.replicate (nodes + 1) 0
  writing := []
  requests := []

/-! ## When the mark is right -/

/-- What a request could still give back. -/
def TokenRequest.held : TokenRequest → ℤ
  | .holding held => held
  | .preConsuming held _ => held
  | _ => 0

/-- What would remain if all requests gave back what they hold and all amounts were written. -/
def MarkState.free (s : MarkState) : ℤ :=
  s.row.remainQuota + total id s.stores + total id s.writing + total TokenRequest.held s.requests

/-- No request is under way and nothing is left to be written. -/
structure MarkState.Ended (s : MarkState) : Prop where
  stores : ∀ value ∈ s.stores, value = 0
  writing : ∀ value ∈ s.writing, value = 0
  requests : ∀ request ∈ s.requests, request = .ended

/-- However the requests go on, when all have ended and the token is still marked as exhausted,
nothing remains of it. -/
def Truthful (batchUpdateEnabled : Bool) (s : MarkState) : Prop :=
  s.row.status = TokenStatusExhausted → ∀ steps after,
    (system batchUpdateEnabled).run s steps = some after → after.Ended →
      after.row.status = TokenStatusExhausted → after.row.remainQuota ≤ 0

/-- The mark is stored where nothing would remain if all requests gave back what they hold. -/
def Rightly (s : MarkState) : MarkStep → Prop
  | .selectUpdate request true =>
      s.requests[request]? = some (.marking TokenStatusExhausted) → s.free ≤ 0
  | _ => True

instance (s : MarkState) : ∀ action, Decidable (Rightly s action)
  | .selectUpdate request true => inferInstanceAs
      (Decidable (s.requests[request]? = some (.marking TokenStatusExhausted) → s.free ≤ 0))
  | .selectUpdate _ false => inferInstanceAs (Decidable True)
  | .validateUserToken .. => inferInstanceAs (Decidable True)
  | .preConsumeTokenQuota .. => inferInstanceAs (Decidable True)
  | .decreaseTokenQuota .. => inferInstanceAs (Decidable True)
  | .postConsumeQuota .. => inferInstanceAs (Decidable True)
  | .finish .. => inferInstanceAs (Decidable True)
  | .batchUpdate .. => inferInstanceAs (Decidable True)
  | .increaseTokenQuota .. => inferInstanceAs (Decidable True)

/-- A request never holds a negative amount. -/
def TokenRequest.Nonneg : TokenRequest → Prop
  | .holding held => 0 ≤ held
  | .preConsuming held quota => 0 ≤ held ∧ 0 ≤ quota
  | _ => True

/-- The requests hold no negative amount, and there is a node. -/
structure Sound (s : MarkState) : Prop where
  requests : ∀ request ∈ s.requests, request.Nonneg
  stores : 0 < s.stores.length

/-! ## One step -/

section

variable {batchUpdateEnabled : Bool} {s s' : MarkState} {action : MarkStep} {node : ℕ} {delta : ℤ}

theorem begun_held (s : MarkState) (key : String) (now : ℤ) (ok : Bool) :
    (s.begun key now ok).Nonneg ∧ (s.begun key now ok).held = 0 := by
  unfold MarkState.begun
  split
  case isFalse => exact ⟨trivial, rfl⟩
  case isTrue =>
    split
    case h_1 => exact ⟨le_refl 0, rfl⟩
    case h_2 => exact ⟨trivial, rfl⟩
    case h_3 => exact ⟨trivial, rfl⟩

/-- A movement changes the row or a store by its amount. -/
theorem moveQuota_spec (hmove : s.moveQuota batchUpdateEnabled node delta = some s') :
    s'.requests = s.requests ∧ s'.row.status = s.row.status ∧
      s'.stores.length = s.stores.length ∧ s'.free = s.free + delta := by
  unfold MarkState.moveQuota at hmove
  split at hmove
  case isTrue =>
    obtain ⟨value, hvalue, rfl⟩ := Option.map_eq_some_iff.1 hmove
    refine ⟨rfl, rfl, List.length_set, ?_⟩
    simp only [MarkState.free, Pool.total_set hvalue, id]
    omega
  case isFalse =>
    cases hmove
    refine ⟨rfl, rfl, rfl, ?_⟩
    simp only [MarkState.free, TokenState.moveRow]
    omega

variable (batchUpdateEnabled) in
theorem exists_moveQuota (hs : 0 < s.stores.length) (delta : ℤ) :
    ∃ s', s.moveQuota batchUpdateEnabled 0 delta = some s' := by
  unfold MarkState.moveQuota
  cases batchUpdateEnabled with
  | true => exact ⟨_, by rw [List.getElem?_eq_getElem hs]; rfl⟩
  | false => exact ⟨_, rfl⟩

/-- A request that moves an amount holds the opposite. -/
theorem goto_move {request : ℕ} {x : TokenRequest} {held quota : ℤ} (hs : Sound s)
    (hx : s.requests[request]? = some x) (hheld : x.held = held) (hnonneg : 0 ≤ held + quota)
    (hmove : (s.goto request (.holding (held + quota))).moveQuota batchUpdateEnabled node (-quota) =
      some s') :
    Sound s' ∧ s'.requests = s.requests.set request (.holding (held + quota)) ∧
      s'.row.status = s.row.status ∧ s'.free = s.free := by
  obtain ⟨hrequests, hstatus, hlength, hfree⟩ := moveQuota_spec hmove
  refine ⟨⟨?_, hlength ▸ hs.stores⟩, hrequests, hstatus, ?_⟩
  · rw [hrequests]
    exact Pool.forall_mem_set hs.requests hnonneg
  · have htotal := Pool.total_set (f := TokenRequest.held) (y := .holding (held + quota)) hx
    rw [hheld, show (TokenRequest.holding (held + quota)).held = held + quota from rfl] at htotal
    rw [hfree]
    simp only [MarkState.free, MarkState.goto, htotal]
    omega

/-- Nothing that could remain comes back, and only a validation that stores its status changes it.
-/
theorem step_spec (hstep : step batchUpdateEnabled s action = some s') (hs : Sound s) :
    Sound s' ∧ s'.free ≤ s.free ∧
      ((s'.row.status = s.row.status ∧ Rightly s action) ∨
        ∃ request status, action = .selectUpdate request true ∧
          s.requests[request]? = some (.marking status) ∧ s'.row.status = status ∧
          s'.free = s.free) := by
  cases action with
  | validateUserToken key now ok =>
      cases hstep
      obtain ⟨hnonneg, hheld⟩ := begun_held s key now ok
      refine ⟨⟨List.forall_mem_append.2 ⟨hs.requests, List.forall_mem_singleton.2 hnonneg⟩,
        hs.stores⟩, ?_, .inl ⟨rfl, trivial⟩⟩
      simp only [MarkState.free, Pool.total_append, Pool.total_cons, Pool.total_nil, hheld]
      omega
  | selectUpdate request ok =>
      rw [step] at hstep
      split at hstep
      case h_2 => cases hstep
      case h_1 status hx =>
        cases hstep
        have hsound : ∀ x ∈ s.requests.set request .ended, x.Nonneg :=
          Pool.forall_mem_set hs.requests trivial
        have hheld := Pool.total_set (f := TokenRequest.held) (y := .ended) hx
        have hended : total TokenRequest.held (s.requests.set request .ended) =
            total TokenRequest.held s.requests := by
          rw [hheld]
          exact (add_zero _).trans (sub_zero _)
        cases ok with
        | true =>
            have hfree : s.row.remainQuota + total id s.stores + total id s.writing +
                total TokenRequest.held (s.requests.set request .ended) = s.free := by
              rw [hended]
              rfl
            exact ⟨⟨hsound, hs.stores⟩, le_of_eq hfree,
              .inr ⟨request, status, rfl, hx, rfl, hfree⟩⟩
        | false =>
            refine ⟨⟨hsound, hs.stores⟩, le_of_eq ?_, .inl ⟨rfl, trivial⟩⟩
            show s.row.remainQuota + total id s.stores + total id s.writing + _ = _
            rw [hended]
            rfl
  | preConsumeTokenQuota request quota ok =>
      rw [step] at hstep
      split at hstep
      case h_2 => cases hstep
      case h_1 held hx =>
        split at hstep
        case isTrue =>
          cases hstep
          exact ⟨hs, le_refl _, .inl ⟨rfl, trivial⟩⟩
        case isFalse henough =>
          cases hstep
          have hheld : 0 ≤ held := hs.requests _ (List.mem_of_getElem? hx)
          have hquota : 0 ≤ quota := by
            rw [not_or] at henough
            omega
          refine ⟨⟨Pool.forall_mem_set hs.requests ⟨hheld, hquota⟩, hs.stores⟩, le_of_eq ?_,
            .inl ⟨rfl, trivial⟩⟩
          simp only [MarkState.free, MarkState.goto, Pool.total_set hx, TokenRequest.held]
          omega
  | decreaseTokenQuota request node ok =>
      rw [step] at hstep
      split at hstep
      case h_2 => cases hstep
      case h_1 held quota hx =>
        obtain ⟨hheld, hquota⟩ := hs.requests _ (List.mem_of_getElem? hx)
        split at hstep
        case isTrue =>
          have hholds : (TokenRequest.preConsuming held quota).held = held := rfl
          obtain ⟨hsound, -, hstatus, hfree⟩ := goto_move hs hx hholds (by omega) hstep
          exact ⟨hsound, le_of_eq hfree, .inl ⟨hstatus, trivial⟩⟩
        case isFalse =>
          cases hstep
          refine ⟨⟨Pool.forall_mem_set hs.requests hheld, hs.stores⟩, le_of_eq ?_, .inl ⟨rfl, trivial⟩⟩
          simp only [MarkState.free, MarkState.goto, Pool.total_set hx, TokenRequest.held]
          omega
  | postConsumeQuota request node quota ok =>
      rw [step] at hstep
      split at hstep
      case h_2 => cases hstep
      case h_1 held hx =>
        split at hstep
        case isFalse => cases hstep
        case isTrue hnonneg =>
          split at hstep
          case isTrue =>
            obtain ⟨hsound, -, hstatus, hfree⟩ := goto_move hs hx rfl hnonneg hstep
            exact ⟨hsound, le_of_eq hfree, .inl ⟨hstatus, trivial⟩⟩
          case isFalse =>
            cases hstep
            exact ⟨hs, le_refl _, .inl ⟨rfl, trivial⟩⟩
  | finish request =>
      rw [step] at hstep
      split at hstep
      case h_2 => cases hstep
      case h_1 held hx =>
        cases hstep
        have hheld : 0 ≤ held := hs.requests _ (List.mem_of_getElem? hx)
        refine ⟨⟨Pool.forall_mem_set hs.requests trivial, hs.stores⟩, ?_, .inl ⟨rfl, trivial⟩⟩
        simp only [MarkState.free, MarkState.goto, Pool.total_set hx, TokenRequest.held]
        omega
  | batchUpdate node =>
      obtain ⟨value, hvalue, rfl⟩ := Option.map_eq_some_iff.1 hstep
      refine ⟨⟨hs.requests, List.length_set.symm ▸ hs.stores⟩, le_of_eq ?_, .inl ⟨rfl, trivial⟩⟩
      simp only [MarkState.free, Pool.total_set hvalue, Pool.total_append, Pool.total_cons,
        Pool.total_nil, id]
      omega
  | increaseTokenQuota batch =>
      obtain ⟨value, hvalue, rfl⟩ := Option.map_eq_some_iff.1 hstep
      refine ⟨⟨hs.requests, hs.stores⟩, le_of_eq ?_, .inl ⟨rfl, trivial⟩⟩
      simp only [MarkState.free, TokenState.moveRow, Pool.total_set hvalue, id]
      omega

end

/-! ## How requests can end -/

section

variable {batchUpdateEnabled : Bool} {s s' : MarkState} {request : ℕ} {x : TokenRequest}

/-- The status is the same, and so is what would remain. -/
structure Unchanged (s s' : MarkState) : Prop where
  status : s'.row.status = s.row.status
  free : s'.free = s.free

theorem Unchanged.refl (s : MarkState) : Unchanged s s :=
  ⟨rfl, rfl⟩

theorem Unchanged.trans {s t u : MarkState} (hst : Unchanged s t) (htu : Unchanged t u) :
    Unchanged s u :=
  ⟨htu.status.trans hst.status, htu.free.trans hst.free⟩

/-- A request gives back what it holds and ends. -/
theorem end_holding {held : ℤ} (hs : Sound s) (hx : s.requests[request]? = some (.holding held)) :
    ∃ t, (system batchUpdateEnabled).run s
        [.postConsumeQuota request 0 (-held) true, .finish request] = some t ∧
      t.requests = s.requests.set request .ended ∧ Sound t ∧ Unchanged s t := by
  have hsum : held + -held = 0 := add_neg_cancel held
  obtain ⟨u, hmove⟩ := exists_moveQuota batchUpdateEnabled
    (s := s.goto request (.holding (held + -held))) hs.stores (- -held)
  obtain ⟨hsound, hrequests, hstatus, hfree⟩ := goto_move hs hx rfl (le_of_eq hsum.symm) hmove
  have hstep : step batchUpdateEnabled s (.postConsumeQuota request 0 (-held) true) = some u := by
    rw [step, hx]
    dsimp only
    rw [if_pos (le_of_eq hsum.symm), if_pos rfl, hmove]
  have hu : u.requests[request]? = some (.holding (held + -held)) := by
    rw [hrequests]
    exact List.getElem?_set_self (List.getElem?_eq_some_iff.1 hx).1
  have hfinish : step batchUpdateEnabled u (.finish request) = some (u.goto request .ended) := by
    rw [step, hu]
  obtain ⟨hsound', -, hcases⟩ := step_spec hfinish hsound
  refine ⟨u.goto request .ended, ?_, ?_, hsound', hstatus, ?_⟩
  · rw [System.run_of_step hstep, System.run_of_step hfinish, System.run_nil]
  · show u.requests.set request .ended = s.requests.set request .ended
    rw [hrequests, List.set_set]
  · rw [← hfree]
    simp only [MarkState.free, MarkState.goto, Pool.total_set hu, TokenRequest.held]
    omega

/-- Every request can end without a change. -/
theorem end_request (hs : Sound s) (hx : s.requests[request]? = some x) :
    ∃ steps t y, (system batchUpdateEnabled).run s steps = some t ∧
      t.requests = s.requests.set request y ∧ y = .ended ∧ Sound t ∧ Unchanged s t := by
  cases x with
  | ended => exact ⟨[], s, .ended, rfl, (Pool.set_self hx).symm, rfl, hs, .refl s⟩
  | holding held =>
      obtain ⟨t, hrun, hrequests, hsound, hsame⟩ := end_holding hs hx
      exact ⟨_, t, .ended, hrun, hrequests, rfl, hsound, hsame⟩
  | marking status =>
      have hstep : step batchUpdateEnabled s (.selectUpdate request false) =
          some { s with requests := s.requests.set request .ended } := by
        rw [step, hx]
        rfl
      obtain ⟨hsound, -, -⟩ := step_spec hstep hs
      refine ⟨[.selectUpdate request false], _, .ended, ?_, rfl, rfl, hsound, rfl, ?_⟩
      · rw [System.run_of_step hstep, System.run_nil]
      · simp only [MarkState.free, Pool.total_set hx, TokenRequest.held]
        omega
  | preConsuming held quota =>
      have hstep : step batchUpdateEnabled s (.decreaseTokenQuota request 0 false) =
          some (s.goto request (.holding held)) := by
        rw [step, hx]
        rfl
      obtain ⟨hsound, -, -⟩ := step_spec hstep hs
      have hu : (s.goto request (.holding held)).requests[request]? = some (.holding held) :=
        List.getElem?_set_self (List.getElem?_eq_some_iff.1 hx).1
      have hsame : Unchanged s (s.goto request (.holding held)) := by
        refine ⟨rfl, ?_⟩
        simp only [MarkState.free, MarkState.goto, Pool.total_set hx, TokenRequest.held]
        omega
      obtain ⟨t, hrun, hrequests, hsound', hsame'⟩ := end_holding hsound hu
      have hfirst := System.run_of_step (M := system batchUpdateEnabled)
        (a := .decreaseTokenQuota request 0 false) hstep
      refine ⟨_, t, .ended, (hfirst _).trans hrun, ?_, rfl, hsound', hsame.trans hsame'⟩
      · rw [hrequests]
        show (s.requests.set request (.holding held)).set request .ended = _
        rw [List.set_set]

variable (batchUpdateEnabled) in
/-- All requests can end and all amounts be written, so that what would remain does. -/
theorem exists_ended (hs : Sound s) :
    ∃ steps t, (system batchUpdateEnabled).run s steps = some t ∧ t.Ended ∧ Unchanged s t := by
  have hnode : ∀ {s : MarkState} {node : ℕ} {value : ℤ}, Sound s → s.stores[node]? = some value →
      ∃ steps t y, (system batchUpdateEnabled).run s steps = some t ∧
        t.stores = s.stores.set node y ∧ y = 0 ∧ Sound t ∧
          (Unchanged s t ∧ t.requests = s.requests) := by
    intro s node value hs hvalue
    have hstep : step batchUpdateEnabled s (.batchUpdate node) = some { s with
        stores := s.stores.set node 0, writing := s.writing ++ [value] } := by
      rw [step, hvalue]
      rfl
    refine ⟨[.batchUpdate node], _, 0, System.run_of_step hstep [], rfl, rfl,
      (step_spec hstep hs).1, ⟨rfl, ?_⟩, rfl⟩
    simp only [MarkState.free, Pool.total_set hvalue, Pool.total_append, Pool.total_cons,
      Pool.total_nil, id]
    omega
  have hbatch : ∀ {s : MarkState} {batch : ℕ} {value : ℤ}, Sound s →
      s.writing[batch]? = some value →
      ∃ steps t y, (system batchUpdateEnabled).run s steps = some t ∧
        t.writing = s.writing.set batch y ∧ y = 0 ∧ Sound t ∧
          (Unchanged s t ∧ t.requests = s.requests ∧ t.stores = s.stores) := by
    intro s batch value hs hvalue
    have hstep : step batchUpdateEnabled s (.increaseTokenQuota batch) = some { s with
        row := TokenState.moveRow s.row value, writing := s.writing.set batch 0 } := by
      rw [step, hvalue]
      rfl
    refine ⟨[.increaseTokenQuota batch], _, 0, System.run_of_step hstep [], rfl, rfl,
      (step_spec hstep hs).1, ⟨rfl, ?_⟩, rfl, rfl⟩
    simp only [MarkState.free, TokenState.moveRow, Pool.total_set hvalue, id]
    omega
  obtain ⟨first, t, hrun, hrequests, ht, hsame⟩ :=
    System.drain_run (M := system batchUpdateEnabled) MarkState.requests (· = .ended) Unchanged
      Unchanged.refl (fun hst htu => hst.trans htu) (fun hs hx => end_request hs hx) hs
  obtain ⟨second, u, hrun', hstores, hu, hsame', hkept⟩ :=
    System.drain_run (M := system batchUpdateEnabled) MarkState.stores (· = 0)
      (fun s t => Unchanged s t ∧ t.requests = s.requests) (fun s => ⟨.refl s, rfl⟩)
      (fun hst htu => ⟨hst.1.trans htu.1, htu.2.trans hst.2⟩) (fun hs hx => hnode hs hx) ht
  obtain ⟨third, v, hrun'', hwriting, -, hsame'', hkept', hkept''⟩ :=
    System.drain_run (M := system batchUpdateEnabled) MarkState.writing (· = 0)
      (fun s t => Unchanged s t ∧ t.requests = s.requests ∧ t.stores = s.stores)
      (fun s => ⟨.refl s, rfl, rfl⟩)
      (fun hst htu => ⟨hst.1.trans htu.1, htu.2.1.trans hst.2.1, htu.2.2.trans hst.2.2⟩)
      (fun hs hx => hbatch hs hx) hu
  refine ⟨first ++ (second ++ third), v, ?_, ⟨?_, hwriting, ?_⟩,
    hsame.trans (hsame'.trans hsame'')⟩
  · rw [System.run_append hrun, System.run_append hrun', hrun'']
  · rw [hkept'']
    exact hstores
  · rw [hkept', hkept]
    exact hrequests

end

/-! ## Runs of requests -/

section

variable {batchUpdateEnabled : Bool} {s s' : MarkState} {action : MarkStep} {steps : List MarkStep}

theorem free_run (hrun : (system batchUpdateEnabled).run s steps = some s') (hs : Sound s) :
    Sound s' ∧ s'.free ≤ s.free :=
  System.kept_run (I := fun t => Sound t ∧ t.free ≤ s.free)
    (fun hstep ht => by
      obtain ⟨hsound, hle, -⟩ := step_spec hstep ht.1
      exact ⟨hsound, hle.trans ht.2⟩)
    ⟨hs, le_refl _⟩ hrun

/-- When all has ended, what remains is what would remain. -/
theorem MarkState.Ended.free_eq (hended : s.Ended) : s.free = s.row.remainQuota := by
  have hheld : ∀ request ∈ s.requests, request.held = 0 := fun request hmem => by
    rw [hended.requests request hmem]
    rfl
  have hstores : total id s.stores = 0 := Pool.total_eq_zero hended.stores
  have hwriting : total id s.writing = 0 := Pool.total_eq_zero hended.writing
  rw [MarkState.free, hstores, hwriting, Pool.total_eq_zero hheld]
  omega

/-- A mark is right however the requests go on exactly if nothing would remain if they gave back
what they hold. -/
theorem truthful_iff (hs : Sound s) :
    Truthful batchUpdateEnabled s ↔ (s.row.status = TokenStatusExhausted → s.free ≤ 0) := by
  constructor
  · intro htruthful hmarked
    obtain ⟨steps, t, hrun, hended, hsame⟩ := exists_ended batchUpdateEnabled hs
    rw [← hsame.free, hended.free_eq]
    exact htruthful hmarked steps t hrun hended (hsame.status.trans hmarked)
  · intro hfree hmarked steps t hrun hended hstill
    rw [← hended.free_eq]
    exact (free_run hrun hs).2.trans (hfree hmarked)

/-- A step keeps the mark right exactly if it does not store it where something could remain. -/
theorem right_step_iff (hstep : step batchUpdateEnabled s action = some s') (hs : Sound s)
    (hright : s.row.status = TokenStatusExhausted → s.free ≤ 0) :
    (s'.row.status = TokenStatusExhausted → s'.free ≤ 0) ↔ Rightly s action := by
  obtain ⟨-, hle, ⟨hstatus, hrightly⟩ | ⟨request, status, rfl, hx, hstatus, hfree⟩⟩ :=
    step_spec hstep hs
  · rw [hstatus]
    exact iff_of_true (fun hmarked => hle.trans (hright hmarked)) hrightly
  · rw [hstatus, hfree]
    show _ ↔ (s.requests[request]? = some (.marking TokenStatusExhausted) → s.free ≤ 0)
    rw [hx, Option.some.injEq, TokenRequest.marking.injEq]

theorem sound_initial (row : Token) (nodes : ℕ) : Sound (.initial row nodes) := by
  refine ⟨nofun, ?_⟩
  show 0 < (List.replicate (nodes + 1) (0 : ℤ)).length
  rw [List.length_replicate]
  exact nodes.succ_pos

theorem free_initial (row : Token) (nodes : ℕ) :
    (MarkState.initial row nodes).free = row.remainQuota := by
  refine MarkState.Ended.free_eq ⟨?_, nofun, nofun⟩
  exact fun value hvalue => List.eq_of_mem_replicate hvalue

/-- The mark is right in all states of a run, however the requests go on, exactly if it is stored
rightly. -/
theorem exhausted_mark_right_iff (batchUpdateEnabled : Bool) (row : Token) (nodes : ℕ)
    (steps : List MarkStep) (after : MarkState)
    (hrow : row.status = TokenStatusExhausted → row.remainQuota ≤ 0)
    (hrun : (system batchUpdateEnabled).run (.initial row nodes) steps = some after) :
    (∀ before later s, steps = before ++ later →
        (system batchUpdateEnabled).run (.initial row nodes) before = some s →
        Truthful batchUpdateEnabled s) ↔
      (system batchUpdateEnabled).Along Rightly (.initial row nodes) steps := by
  have hright : (MarkState.initial row nodes).row.status = TokenStatusExhausted →
      (MarkState.initial row nodes).free ≤ 0 := fun hmarked => by
    rw [free_initial]
    exact hrow hmarked
  exact System.reached_iff_along
    (P := fun s => Sound s ∧ (s.row.status = TokenStatusExhausted → s.free ≤ 0))
    (fun hs => (truthful_iff hs.1).2 hs.2)
    (fun hstep hs hrightly => ⟨(step_spec hstep hs.1).1, (right_step_iff hstep hs.1 hs.2).2 hrightly⟩)
    (fun hstep hs htruthful => (right_step_iff hstep hs.1 hs.2).1
      ((truthful_iff (step_spec hstep hs.1).1).1 htruthful))
    ⟨sound_initial row nodes, hright⟩ hrun

end

/-- A limited token that is enabled, never expires and has 100 left. -/
def enabledToken : Token where
  status := TokenStatusEnabled
  expiredTime := -1
  remainQuota := 100
  unlimitedQuota := false
  usedQuota := 0

/-- A request consumes all that remains before the next one is validated. -/
def consumedSteps : List MarkStep :=
  [.validateUserToken "abcdefgh" 50 true, .preConsumeTokenQuota 0 60 true,
    .decreaseTokenQuota 0 0 true, .postConsumeQuota 0 0 40 true, .finish 0,
    .validateUserToken "abcdefgh" 51 true, .selectUpdate 1 true]

theorem consumed_token_is_exhausted :
    ∃ s, (system false).run (.initial enabledToken 0) consumedSteps = some s ∧
      s.row.status = TokenStatusExhausted ∧ Truthful false s :=
  ⟨_, rfl, rfl, (exhausted_mark_right_iff false enabledToken 0 consumedSteps _ (by decide) rfl).2
    (by decide) consumedSteps [] _ rfl rfl⟩

/-- A second request is validated while the first one has all that remains as its deposit, which it
then gets back. -/
def returnedDeposit : List MarkStep :=
  [.validateUserToken "abcdefgh" 50 true, .preConsumeTokenQuota 0 100 true,
    .decreaseTokenQuota 0 0 true, .validateUserToken "abcdefgh" 51 true, .selectUpdate 1 true,
    .postConsumeQuota 0 0 (-100) true, .finish 0]

theorem returned_deposit_locks_out :
    ∃ s, (system false).run (.initial enabledToken 0) returnedDeposit = some s ∧
      s.requests = [.ended, .ended] ∧ s.Ended ∧ s.row.status = TokenStatusExhausted ∧
      s.row.remainQuota = 100 :=
  ⟨_, rfl, rfl, ⟨by decide, nofun, by decide⟩, rfl, rfl⟩

end TokenMark

end NewApi.Model
