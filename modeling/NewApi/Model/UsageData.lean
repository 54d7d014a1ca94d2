import Mathlib.Algebra.Module.Pi
import Mathlib.Algebra.Ring.Prod
import Mathlib.Tactic.Abel
import Mathlib.Tactic.LinearCombination
import NewApi.Lib.Integers
import NewApi.Lib.Pool
import NewApi.Lib.System

/-!
# Usage data of the dashboard

Every node adds the calls that it logs to entries of a cache and from time to time writes them to
`quota_data`: a row that is found for an entry is increased, otherwise one is created. The lookup
and the write are two statements, and the table has no unique index.
-/

namespace NewApi.Model

open NewApi.Lib NewApi.Lib.Strings
open scoped List

/-- What the rows of `quota_data` are looked up by. -/
structure UsageKey where
  userID : ℤ
  username : String
  modelName : String
  createdAt : ℤ
deriving DecidableEq

structure QuotaData extends UsageKey where
  tokenUsed : ℤ
  count : ℤ
  quota : ℤ
deriving DecidableEq

namespace QuotaData

/-! ## The cache of a node and the table -/

/-- The text under which `CacheQuotaData` has an entry. -/
def cacheKey (key : UsageKey) : String :=
  itoa key.userID ++ "-" ++ key.username ++ "-" ++ key.modelName ++ "-" ++ itoa key.createdAt

-- different fields can be joined to one text
example : cacheKey ⟨1, "a-b", "c", 3600⟩ = cacheKey ⟨1, "a", "b-c", 3600⟩ := by decide

/-- The entry or row with the amounts of another one added. -/
def add (quotaData other : QuotaData) : QuotaData :=
  { quotaData with
    tokenUsed := quotaData.tokenUsed + other.tokenUsed
    count := quotaData.count + other.count
    quota := quotaData.quota + other.quota }

/-- The map has at most one entry for each text; a new call is added to it. -/
def logQuotaDataCache (call : QuotaData) : List QuotaData → List QuotaData
  | [] => [call]
  | quotaData :: cache =>
      if cacheKey quotaData.toUsageKey = cacheKey call.toUsageKey then quotaData.add call :: cache
      else quotaData :: logQuotaDataCache call cache

/-- The update adds to all rows that it matches. -/
def increaseQuotaData (rows : List QuotaData) (quotaData : QuotaData) : List QuotaData :=
  rows.map fun row => if row.toUsageKey = quotaData.toUsageKey then row.add quotaData else row

/-- The call of `LogQuotaData`, with its time cut to the hour. -/
def logged (userId : ℤ) (username modelName : String) (quota createdAt tokenUsed : ℤ) : QuotaData :=
  ⟨⟨userId, username, modelName, createdAt - createdAt.tmod 3600⟩, tokenUsed, 1, quota⟩

/-- `SaveQuotaDataCache` between two statements: the entries that are left, and the one that has
been looked up with whether a row was found. -/
structure Saving where
  rest : List QuotaData
  current : Option (QuotaData × Bool)
deriving DecidableEq

/-- The lock of the cache is held while it is saved. -/
structure Node where
  cache : List QuotaData
  saving : Option Saving
deriving DecidableEq

/-- The amounts that a node has not written yet. -/
def Node.unsaved (node : Node) : List QuotaData :=
  match node.saving with
  | none => node.cache
  | some saving => (saving.current.map Prod.fst).toList ++ saving.rest

/-- What a node does at once. A save takes the entries of the map in any order; `ok` says whether
the statement succeeds. -/
inductive NodeStep
  | logQuotaData (userId : ℤ) (username modelName : String) (quota createdAt tokenUsed : ℤ)
  | beginSave
  | lookup (entry : ℕ) (ok : Bool)
  | write (ok : Bool)
  | endSave
deriving DecidableEq

/-- The table and the node after its step, and the calls that are logged by it. -/
def Node.act (rows : List QuotaData) (node : Node) :
    NodeStep → Option (List QuotaData × Node × List QuotaData)
  | .logQuotaData userId username modelName quota createdAt tokenUsed =>
      match node.saving with
      | none =>
          let call := logged userId username modelName quota createdAt tokenUsed
          some (rows, { node with cache := logQuotaDataCache call node.cache }, [call])
      | some _ => none
  | .beginSave =>
      match node.saving with
      | none => some (rows, { node with saving := some ⟨node.cache, none⟩ }, [])
      | some _ => none
  | .lookup entry ok =>
      match node.saving with
      | some ⟨rest, none⟩ =>
          match rest[entry]? with
          | some quotaData =>
              let found := ok && rows.any fun row => row.toUsageKey = quotaData.toUsageKey
              some (rows,
                { node with saving := some ⟨rest.eraseIdx entry, some (quotaData, found)⟩ }, [])
          | none => none
      | _ => none
  | .write ok =>
      match node.saving with
      | some ⟨rest, some (quotaData, found)⟩ =>
          let written := if found then increaseQuotaData rows quotaData else rows ++ [quotaData]
          some (if ok then written else rows, { node with saving := some ⟨rest, none⟩ }, [])
      | _ => none
  | .endSave =>
      match node.saving with
      | some ⟨[], none⟩ => some (rows, ⟨[], none⟩, [])
      | _ => none

/-- The table, the nodes, and the calls logged so far. -/
structure UsageState where
  rows : List QuotaData
  nodes : List Node
  calls : List QuotaData
deriving DecidableEq

def step (s : UsageState) (action : ℕ × NodeStep) : Option UsageState :=
  match s.nodes[action.1]? with
  | some node =>
      (node.act s.rows action.2).map fun (rows, node, calls) =>
        { rows := rows, nodes := s.nodes.set action.1 node, calls := s.calls ++ calls }
  | none => none

def system : System UsageState (ℕ × NodeStep) where
  step := step

/-- Nodes with empty caches that share a table. -/
def UsageState.initial (rows : List QuotaData) (nodes : ℕ) : UsageState where
  rows := rows
  nodes := List.replicate nodes ⟨[], none⟩
  calls := []

/-! ## What is conserved -/

/-- Count, quota and tokens. -/
def amounts (quotaData : QuotaData) : ℤ × ℤ × ℤ :=
  (quotaData.count, quotaData.quota, quotaData.tokenUsed)

/-- The amounts counted under some fields. -/
def countedUnder (key : UsageKey) (quotaData : QuotaData) : UsageKey → ℤ × ℤ × ℤ :=
  Pi.single key quotaData.amounts

/-- The sums of the amounts for each user, user name, model and hour. -/
def sums (quotaDatas : List QuotaData) : UsageKey → ℤ × ℤ × ℤ :=
  (quotaDatas.map fun quotaData => countedUnder quotaData.toUsageKey quotaData).sum

/-- What has come to the table and what is still cached are the logged calls. -/
def Conserved (rows : List QuotaData) (s : UsageState) : Prop :=
  sums s.rows + sums (s.nodes.flatMap Node.unsaved) = sums rows + sums s.calls

/-- The fields of the entry that a call is added to. -/
def loggedUnder (call : QuotaData) (cache : List QuotaData) : UsageKey :=
  match cache.find? fun quotaData =>
      cacheKey quotaData.toUsageKey = cacheKey call.toUsageKey with
  | some quotaData => quotaData.toUsageKey
  | none => call.toUsageKey

/-- A call is added to an entry of its own fields; a write succeeds, and an increase finds one row.
-/
def Node.Exact (rows : List QuotaData) (node : Node) : NodeStep → Prop
  | .logQuotaData userId username modelName quota createdAt tokenUsed =>
      let call := logged userId username modelName quota createdAt tokenUsed
      loggedUnder call node.cache = call.toUsageKey
  | .write ok =>
      ∀ current ∈ node.saving.bind Saving.current, ok = true ∧
        (current.2 = true → rows.countP (fun row => row.toUsageKey = current.1.toUsageKey) = 1)
  | _ => True

instance (rows : List QuotaData) (node : Node) : ∀ action, Decidable (node.Exact rows action)
  | .logQuotaData .. => inferInstanceAs (Decidable (loggedUnder _ node.cache = _))
  | .beginSave => inferInstanceAs (Decidable True)
  | .lookup .. => inferInstanceAs (Decidable True)
  | .write ok => inferInstanceAs (Decidable (∀ current ∈ node.saving.bind Saving.current,
      ok = true ∧ (current.2 = true →
        rows.countP (fun row => row.toUsageKey = current.1.toUsageKey) = 1)))
  | .endSave => inferInstanceAs (Decidable True)

/-! ## Sums of amounts -/

section

variable {rows cache : List QuotaData} {call quotaData : QuotaData}

theorem sums_cons (quotaData : QuotaData) (rest : List QuotaData) :
    sums (quotaData :: rest) = countedUnder quotaData.toUsageKey quotaData + sums rest := by
  rw [sums, List.map_cons, List.sum_cons]
  rfl

theorem sums_append (left right : List QuotaData) :
    sums (left ++ right) = sums left + sums right := by
  rw [sums, List.map_append, List.sum_append]
  rfl

theorem sums_singleton (quotaData : QuotaData) :
    sums [quotaData] = countedUnder quotaData.toUsageKey quotaData :=
  List.sum_singleton

theorem sums_perm {left right : List QuotaData} (hperm : left ~ right) :
    sums left = sums right :=
  (hperm.map _).sum_eq

theorem countedUnder_add (key : UsageKey) (left right : QuotaData) :
    countedUnder key (left.add right) = countedUnder key left + countedUnder key right :=
  Pi.single_add (f := fun _ => ℤ × ℤ × ℤ) key left.amounts right.amounts

/-- A call adds its amounts to the fields of the entry under its text. -/
theorem sums_logQuotaDataCache (call : QuotaData) (cache : List QuotaData) :
    sums (logQuotaDataCache call cache) =
      sums cache + countedUnder (loggedUnder call cache) call := by
  induction cache with
  | nil => rw [logQuotaDataCache, sums_singleton, loggedUnder, List.find?_nil, sums, List.map_nil,
      List.sum_nil, zero_add]
  | cons quotaData cache ih =>
      rw [logQuotaDataCache, loggedUnder, List.find?_cons]
      by_cases hkey : cacheKey quotaData.toUsageKey = cacheKey call.toUsageKey
      · rw [if_pos hkey, decide_eq_true hkey, sums_cons, sums_cons]
        show countedUnder quotaData.toUsageKey (quotaData.add call) + _ = _
        rw [countedUnder_add]
        abel
      · rw [if_neg hkey, decide_eq_false hkey, sums_cons, sums_cons, ih, loggedUnder]
        abel

/-- An update adds the amounts once for every row that it matches. -/
theorem sums_increaseQuotaData (rows : List QuotaData) (quotaData : QuotaData) :
    sums (increaseQuotaData rows quotaData) = sums rows +
      rows.countP (fun row => row.toUsageKey = quotaData.toUsageKey) •
        countedUnder quotaData.toUsageKey quotaData := by
  induction rows with
  | nil => simp [increaseQuotaData, sums]
  | cons row rows ih =>
      rw [increaseQuotaData, List.map_cons, sums_cons, sums_cons, ← increaseQuotaData, ih,
        List.countP_cons]
      by_cases hkey : row.toUsageKey = quotaData.toUsageKey
      · rw [if_pos hkey, if_pos (decide_eq_true hkey), succ_nsmul]
        show countedUnder row.toUsageKey (row.add quotaData) + _ = _
        rw [countedUnder_add, hkey]
        abel
      · rw [if_neg hkey, if_neg (by simpa using hkey), add_zero]
        abel

theorem countedUnder_self (key : UsageKey) (quotaData : QuotaData) :
    countedUnder key quotaData key = quotaData.amounts := by
  rw [countedUnder, Pi.single_eq_same]

theorem countedUnder_inj (hcount : 0 < call.count) {key other : UsageKey} :
    countedUnder key call = countedUnder other call ↔ key = other := by
  constructor
  · intro hsame
    by_contra hne
    have hhere := congrFun hsame key
    rw [countedUnder_self, countedUnder, Pi.single_eq_of_ne hne] at hhere
    have hzero : call.count = 0 := congrArg Prod.fst hhere
    omega
  · rintro rfl
    rfl

theorem smul_countedUnder_iff (hcount : 0 < call.count) {key : UsageKey} (n : ℕ) :
    n • countedUnder key call = countedUnder key call ↔ n = 1 := by
  constructor
  · intro hsame
    have hhere := congrFun hsame key
    rw [Pi.smul_apply, countedUnder_self] at hhere
    have hfirst : n • call.count = 1 * call.count := by
      rw [one_mul]
      exact congrArg Prod.fst hhere
    rw [nsmul_eq_mul] at hfirst
    exact_mod_cast mul_right_cancel₀ (by omega) hfirst
  · rintro rfl
    exact one_nsmul _

theorem countedUnder_ne_zero (hcount : 0 < call.count) (key : UsageKey) :
    countedUnder key call ≠ 0 := by
  intro hzero
  have hhere := congrFun hzero key
  rw [countedUnder_self] at hhere
  have hfirst : call.count = 0 := congrArg Prod.fst hhere
  omega

end

/-! ## One step of a node -/

section

variable {rows rows' calls : List QuotaData} {node node' : Node} {action : NodeStep}

theorem count_logQuotaDataCache {call : QuotaData} {cache : List QuotaData} (hcall : 0 < call.count)
    (hcache : ∀ quotaData ∈ cache, 0 < quotaData.count) :
    ∀ quotaData ∈ logQuotaDataCache call cache, 0 < quotaData.count := by
  induction cache with
  | nil => simpa [logQuotaDataCache] using hcall
  | cons quotaData cache ih =>
      obtain ⟨hhead, htail⟩ := List.forall_mem_cons.1 hcache
      rw [logQuotaDataCache]
      split
      case isTrue =>
        have hsum : 0 < quotaData.count + call.count := by omega
        exact List.forall_mem_cons.2 ⟨hsum, htail⟩
      case isFalse => exact List.forall_mem_cons.2 ⟨hhead, ih htail⟩

/-- A write brings an entry to the table once exactly if it succeeds and does not increase several
rows. -/
theorem sums_write_iff {quotaData : QuotaData} (hcount : 0 < quotaData.count) (found ok : Bool) :
    sums (if ok then if found then increaseQuotaData rows quotaData else rows ++ [quotaData]
        else rows) = sums rows + countedUnder quotaData.toUsageKey quotaData ↔
      ok = true ∧ (found = true →
        rows.countP (fun row => row.toUsageKey = quotaData.toUsageKey) = 1) := by
  cases ok with
  | false =>
      refine iff_of_false (fun hsame => ?_) nofun
      exact countedUnder_ne_zero hcount _ (left_eq_add.1 hsame)
  | true =>
      rw [if_pos rfl, eq_self_iff_true, true_and]
      cases found with
      | false =>
          refine iff_of_true ?_ nofun
          rw [if_neg Bool.false_ne_true, sums_append, sums_singleton]
      | true =>
          rw [if_pos rfl, sums_increaseQuotaData, add_right_inj, smul_countedUnder_iff hcount,
            forall_prop_of_true rfl]

/-- Every entry counts at least one call, and a step moves amounts between node, table and log
exactly under its condition. -/
theorem Node.act_sound (hact : node.act rows action = some (rows', node', calls))
    (hcount : ∀ quotaData ∈ node.unsaved, 0 < quotaData.count) :
    (∀ quotaData ∈ node'.unsaved, 0 < quotaData.count) ∧
      (sums rows' + sums node'.unsaved = sums rows + sums node.unsaved + sums calls ↔
        node.Exact rows action) := by
  obtain ⟨cache, saving⟩ := node
  cases action with
  | logQuotaData userId username modelName quota createdAt tokenUsed =>
      rw [Node.act] at hact
      split at hact
      case h_2 => cases hact
      case h_1 hnone =>
        cases hact
        obtain rfl : saving = none := hnone
        have hcall : 0 < (logged userId username modelName quota createdAt tokenUsed).count := one_pos
        refine ⟨count_logQuotaDataCache hcall hcount, ?_⟩
        show _ + sums (logQuotaDataCache _ cache) = _ + sums cache + _ ↔ loggedUnder _ cache = _
        rw [sums_logQuotaDataCache, sums_singleton, add_assoc, add_right_inj, add_right_inj,
          countedUnder_inj hcall]
  | beginSave =>
      rw [Node.act] at hact
      split at hact
      case h_2 => cases hact
      case h_1 hnone =>
        cases hact
        obtain rfl : saving = none := hnone
        exact ⟨hcount, iff_of_true (add_zero _).symm trivial⟩
  | lookup entry ok =>
      rw [Node.act] at hact
      split at hact
      case h_2 => cases hact
      case h_1 rest hrest =>
        obtain rfl : saving = some ⟨rest, none⟩ := hrest
        split at hact
        case h_2 => cases hact
        case h_1 quotaData hentry =>
          cases hact
          obtain ⟨hlength, rfl⟩ := List.getElem?_eq_some_iff.1 hentry
          have hperm : rest[entry] :: rest.eraseIdx entry ~ rest :=
            List.getElem_cons_eraseIdx_perm hlength
          refine ⟨fun other hother => hcount other (hperm.subset hother), iff_of_true ?_ trivial⟩
          show _ + sums (rest[entry] :: rest.eraseIdx entry) = _ + sums rest + 0
          rw [sums_perm hperm, add_zero]
  | write ok =>
      rw [Node.act] at hact
      split at hact
      case h_2 => cases hact
      case h_1 rest quotaData found hcurrent =>
        cases hact
        obtain rfl : saving = some ⟨rest, some (quotaData, found)⟩ := hcurrent
        obtain ⟨hcurrent, hrest⟩ := List.forall_mem_cons.1 hcount
        refine ⟨hrest, ?_⟩
        show _ + sums rest = sums rows + sums (quotaData :: rest) + 0 ↔ ∀ current ∈ some _, _
        rw [sums_cons, add_zero, ← add_assoc, add_left_inj, sums_write_iff hcurrent]
        constructor
        · intro hexact current hmem
          obtain rfl := Option.mem_some_iff.1 hmem
          exact hexact
        · intro hexact
          exact hexact _ rfl
  | endSave =>
      rw [Node.act] at hact
      split at hact
      case h_2 => cases hact
      case h_1 hdone =>
        cases hact
        obtain rfl : saving = some ⟨[], none⟩ := hdone
        exact ⟨nofun, iff_of_true (add_zero _).symm trivial⟩

end

/-! ## Runs of the nodes -/

section

variable {rows : List QuotaData} {s s' : UsageState} {action : ℕ × NodeStep}

/-- Every entry that is not yet written counts a call. -/
def Counted (s : UsageState) : Prop :=
  ∀ node ∈ s.nodes, ∀ quotaData ∈ node.unsaved, 0 < quotaData.count

/-- The node that takes the step does so exactly. -/
def Exact (s : UsageState) (action : ℕ × NodeStep) : Prop :=
  ∀ node ∈ s.nodes[action.1]?, node.Exact s.rows action.2

instance (s : UsageState) (action : ℕ × NodeStep) : Decidable (Exact s action) :=
  inferInstanceAs (Decidable (∀ node ∈ s.nodes[action.1]?, node.Exact s.rows action.2))

variable (rows) in
theorem step_sound (hstep : step s action = some s') (hcounted : Counted s) :
    Counted s' ∧ (Conserved rows s → (Conserved rows s' ↔ Exact s action)) := by
  rw [step] at hstep
  split at hstep
  case h_2 => cases hstep
  case h_1 node hnode =>
    obtain ⟨⟨rows', node', calls⟩, hact, rfl⟩ := Option.map_eq_some_iff.1 hstep
    obtain ⟨hcount, hiff⟩ :=
      node.act_sound hact (hcounted node (List.mem_of_getElem? hnode))
    refine ⟨Pool.forall_mem_set hcounted hcount, fun hconserved => ?_⟩
    have hpool := sums_perm (Pool.flatMap_set_perm Node.unsaved node' hnode)
    rw [sums_append, sums_append] at hpool
    have hexact : Exact s action ↔ node.Exact s.rows action.2 := by
      rw [Exact, hnode]
      exact ⟨fun h => h node rfl, fun h other hother => by
        obtain rfl := Option.mem_some_iff.1 hother
        exact h⟩
    rw [hexact, ← hiff]
    show sums rows' + sums ((s.nodes.set action.1 node').flatMap Node.unsaved) =
      sums rows + sums (s.calls ++ calls) ↔ _
    rw [sums_append]
    rw [Conserved] at hconserved
    constructor
    · intro hafter
      linear_combination hafter - hpool - hconserved
    · intro hact
      linear_combination hact + hpool + hconserved

theorem counted_initial (rows : List QuotaData) (nodes : ℕ) : Counted (.initial rows nodes) := by
  intro node hnode
  obtain rfl := List.eq_of_mem_replicate hnode
  exact nofun

theorem conserved_initial (rows : List QuotaData) (nodes : ℕ) :
    Conserved rows (.initial rows nodes) := by
  have hnone : (List.replicate nodes (⟨[], none⟩ : Node)).flatMap Node.unsaved = [] :=
    List.flatMap_eq_nil_iff.2 fun node hnode => by
      rw [List.eq_of_mem_replicate hnode]
      rfl
  show sums rows + sums ((List.replicate nodes (⟨[], none⟩ : Node)).flatMap Node.unsaved) =
    sums rows + sums []
  rw [hnone]

/-- Nodes that log and save in any order conserve the usage in all states exactly if every step is
exact. -/
theorem usage_conserved_iff (rows : List QuotaData) (nodes : ℕ) (actions : List (ℕ × NodeStep))
    (after : UsageState) (hrun : system.run (.initial rows nodes) actions = some after) :
    (∀ before later s, actions = before ++ later →
        system.run (.initial rows nodes) before = some s → Conserved rows s) ↔
      system.Along Exact (.initial rows nodes) actions :=
  System.states_iff_along (fun hstep hs => (step_sound rows hstep hs).1)
    (fun hstep hs hconserved => (step_sound rows hstep hs).2 hconserved) (counted_initial rows nodes)
    (conserved_initial rows nodes) hrun

end

/-- A call of user 1 at one hour, by the node that logs it. -/
def logAt (node : ℕ) : ℕ × NodeStep :=
  (node, .logQuotaData 1 "root" "gpt-4o" 500 3700 40)

/-- The first node saves its call before the second one does, which increases its row. -/
def savesInTurn : List (ℕ × NodeStep) :=
  [logAt 0, logAt 1, (0, .beginSave), (0, .lookup 0 true), (0, .write true), (0, .endSave),
    (1, .beginSave), (1, .lookup 0 true), (1, .write true), (1, .endSave)]

theorem saves_in_turn_conserve :
    ∃ s, system.run (.initial [] 2) savesInTurn = some s ∧
      s.rows = [⟨⟨1, "root", "gpt-4o", 3600⟩, 80, 2, 1000⟩] ∧ Conserved [] s :=
  ⟨_, rfl, rfl, (usage_conserved_iff [] 2 savesInTurn _ rfl).2 (by decide) savesInTurn [] _ rfl rfl⟩

/-- Both nodes look for a row before either creates one; a third call then increases both rows. -/
def savesAtOnce : List (ℕ × NodeStep) :=
  [logAt 0, logAt 1, (0, .beginSave), (1, .beginSave), (0, .lookup 0 true), (1, .lookup 0 true),
    (0, .write true), (1, .write true), (0, .endSave), logAt 0, (0, .beginSave),
    (0, .lookup 0 true), (0, .write true)]

theorem saves_at_once_count_twice :
    ∃ s, system.run (.initial [] 2) savesAtOnce = some s ∧ s.calls.length = 3 ∧
      s.rows = List.replicate 2 ⟨⟨1, "root", "gpt-4o", 3600⟩, 80, 2, 1000⟩ ∧
      ¬ Conserved [] s := by
  refine ⟨_, rfl, rfl, rfl, fun hconserved => ?_⟩
  have hhere := congrFun hconserved ⟨1, "root", "gpt-4o", 3600⟩
  revert hhere
  decide

end QuotaData

end NewApi.Model
