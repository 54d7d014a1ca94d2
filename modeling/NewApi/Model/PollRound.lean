import NewApi.Lib.System
import NewApi.Model.Table

/-!
# One round of a polling loop

A polling loop selects the unfinished tasks, asks every channel about its own, and takes the
selected task with the upstream id of a response for the one that the response is about.  This
file follows a round through the tables: what it writes and whose quota it moves belongs to tasks
that some response was taken to be about.
-/

namespace NewApi.Model

open NewApi.Lib

/-- What tells one task from another: its platform, the upstream id that its channel gave it, the
channel and the user.  No poll changes it. -/
structure TaskKey where
  platform : String
  taskId : String
  channelId : ℕ
  userId : ℕ
deriving DecidableEq

/-- A task that was taken for the one that a response, or the loss, of a channel is about; `id` is
its primary key. -/
structure Applied where
  channelId : ℕ
  taskId : String
  id : ℕ
  task : TaskKey

/-- The task was submitted to that channel under that upstream id. -/
def Applied.Own (applied : Applied) : Prop :=
  applied.task.channelId = applied.channelId ∧ applied.task.taskId = applied.taskId

/-- The order in which a map is gone through: any order of its keys. -/
structure MapOrder (α : Type) where
  order : List α → List α
  perm : ∀ keys, (order keys).Perm keys

def MapOrder.sorted (α : Type) : MapOrder α :=
  ⟨id, List.Perm.refl⟩

theorem MapOrder.mem_order {α : Type} (m : MapOrder α) {keys : List α} {x : α} :
    x ∈ m.order keys ↔ x ∈ keys :=
  (m.perm keys).mem_iff

/-- A round under way: the state of the system, and the tasks that its responses were taken to be
about. -/
structure Polling (σ : Type) where
  state : σ
  applied : List Applied

/-- How the visit of a channel that is asked about its tasks at once goes: the channel is gone, has
no base URL, the request or its decoding fails, or there are items.  The flag tells whether the
database takes the write. -/
inductive ChannelAnswer (I : Type)
  | channelGone (ok : Bool)
  | noBaseURL
  | failed
  | items (data : List I)

/-- No answer ends the loop, and each is applied to a task of the channel. -/
def ChannelAnswer.Own {I : Type} (onlyOwn : Prop) (own : I → Prop) : ChannelAnswer I → Prop
  | .channelGone ok => ok = true → onlyOwn
  | .noBaseURL => False
  | .failed => True
  | .items data => ∀ item ∈ data, own item

namespace Polling

variable {σ : Type} (alive : σ → Bool) {p p' : Polling σ} {s : σ} {applied : List Applied}

/-- The round goes on after an action, unless the polling goroutine has ended. -/
def goOn (p : Polling σ) (next : Option σ) (applied : List Applied) : Option (Polling σ) :=
  match next with
  | none => none
  | some s => if alive s then some ⟨s, p.applied ++ applied⟩ else none

variable {alive}

theorem goOn_some {next : Option σ} (hgo : p.goOn alive next applied = some p') :
    ∃ s, next = some s ∧ alive s = true ∧ p' = ⟨s, p.applied ++ applied⟩ := by
  unfold goOn at hgo
  cases next with
  | none => cases hgo
  | some s =>
      dsimp only at hgo
      split at hgo
      case isTrue halive => exact ⟨s, rfl, halive, (Option.some.inj hgo).symm⟩
      case isFalse => cases hgo

/-- What holds of all tasks that responses are applied to, when the goroutine lives on. -/
theorem goOn_iff {P : Applied → Prop} (halive : alive s = true) :
    (∃ p', p.goOn alive (some s) applied = some p' ∧ ∀ a ∈ p'.applied, P a) ↔
      (∀ a ∈ p.applied, P a) ∧ True ∧ ∀ a ∈ applied, P a := by
  have hgo : p.goOn alive (some s) applied = some ⟨s, p.applied ++ applied⟩ := if_pos halive
  rw [hgo, true_and, ← List.forall_mem_append]
  constructor
  · rintro ⟨p', hsame, hown⟩
    obtain rfl := Option.some.inj hsame
    exact hown
  · intro hown
    exact ⟨_, rfl, hown⟩

end Polling

section

variable {R : Type} (key : R → TaskKey)

/-- The selected task that a condition on its key is met by last. -/
def lastNamed (p : TaskKey → Bool) (copies : List (Copy R)) : Option TaskKey :=
  (Pool.lastMatch (fun copy => p (key copy.row)) copies).map fun found => key found.2.row

/-- The rows that `UPDATE ... WHERE task_id IN ?` finds when a channel is gone. -/
def goneTasks (entries : List (Billed R)) (channelId : ℕ) (taskIds : List String) : List Applied :=
  (entries.zipIdx.filter fun e => taskIds.contains (key e.1.row).taskId).map fun e =>
    ⟨channelId, (key e.1.row).taskId, e.2, key e.1.row⟩

/-- The copy and its row are the same task. -/
def SameTask (row : R) (e : Billed R) : Prop :=
  key row = key e.row

/-- What one step of a round can do to the tables, and the tasks that it applies a response to. -/
inductive PollEffect (db : DB) (table : Table R) : List Applied → DB → Table R → Prop
  | still : PollEffect db table [] db table
  | null {p : ℕ → R → Bool} {f : R → R} (hkey : ∀ row, key (f row) = key row)
      (hnull : ∀ id e, table.entries[id]? = some e → p id e.row = true → (key e.row).taskId = "") :
      PollEffect db table [] db (table.updateWhere p f)
  | gone (channelId : ℕ) (taskIds : List String) {f : R → R} (hkey : ∀ row, key (f row) = key row) :
      PollEffect db table (goneTasks key table.entries channelId taskIds) db
        (table.updateWhere (fun _ row => taskIds.contains (key row).taskId) f)
  | poll {i : ℕ} {copy : Copy R} {result : PollResult R} (channelId : ℕ)
      (hcopy : table.copies[i]? = some copy) (hkey : key result.row = key copy.row)
      (hmovement : ∀ movement ∈ result.movement, movement.userId = (key copy.row).userId) :
      PollEffect db table [⟨channelId, (key copy.row).taskId, copy.id, key copy.row⟩]
        (table.poll db i copy result).1 (table.poll db i copy result).2

/-- What the tables have to do with those that the round began with: the tasks and the copies are
the same ones, and a row that was written, other than one without an upstream id, and a user whose
quota was moved belong to a task that a response was applied to. -/
structure Confined (db₀ : DB) (table₀ : Table R) (db : DB) (table : Table R)
    (applied : List Applied) : Prop where
  keys : table.entries.map (fun e => key e.row) = table₀.entries.map fun e => key e.row
  copies : table.copies.map (fun copy => key copy.row) = table₀.copies.map fun copy => key copy.row
  backed : Table.Backed (SameTask key) table.entries table.copies
  changed : ∀ id e e', table₀.entries[id]? = some e → table.entries[id]? = some e' →
    e'.row ≠ e.row → (key e.row).taskId = "" ∨ ∃ a ∈ applied, a.id = id ∧ a.task = key e.row
  moved : ∀ userId, db.userQuota userId ≠ db₀.userQuota userId →
    ∃ a ∈ applied, a.task.userId = userId

variable {key} {db₀ db db' : DB} {table₀ table table' : Table R} {applied more : List Applied}

/-- A round begins with copies of the rows. -/
theorem Confined.start (hselected : ∀ copy ∈ table₀.copies, ∃ e, table₀.entries[copy.id]? = some e ∧
    copy.row = e.row) : Confined key db₀ table₀ db₀ table₀ [] where
  keys := rfl
  copies := rfl
  backed := by
    intro copy hcopy
    obtain ⟨e, hentry, hrow⟩ := hselected copy hcopy
    exact ⟨e, hentry, congrArg key hrow⟩
  changed := by
    intro id e e' hentry hentry' hrow
    rw [hentry] at hentry'
    obtain rfl := Option.some.inj hentry'
    exact absurd rfl hrow
  moved := fun userId hmoved => absurd rfl hmoved

theorem Confined.lastNamed_eq (hconfined : Confined key db₀ table₀ db table applied)
    (p : TaskKey → Bool) : lastNamed key p table.copies = lastNamed key p table₀.copies :=
  Pool.lastMatch_congr hconfined.copies

/-- The row of the task as the round began. -/
theorem Confined.key_eq (hconfined : Confined key db₀ table₀ db table applied) {id : ℕ}
    {e e' : Billed R} (hentry : table₀.entries[id]? = some e)
    (hentry' : table.entries[id]? = some e') :
    key e'.row = key e.row := by
  have hkeys := congrArg (fun keys => keys[id]?) hconfined.keys
  simp only [List.getElem?_map, hentry, hentry', Option.map_some] at hkeys
  exact Option.some.inj hkeys

theorem mem_goneTasks {a : Applied} {entries : List (Billed R)} {channelId : ℕ}
    {taskIds : List String} : a ∈ goneTasks key entries channelId taskIds ↔
      ∃ id e, entries[id]? = some e ∧ (key e.row).taskId ∈ taskIds ∧
        a = ⟨channelId, (key e.row).taskId, id, key e.row⟩ := by
  unfold goneTasks
  simp only [List.mem_map, List.mem_filter, Prod.exists, List.mem_zipIdx_iff_getElem?,
    List.contains_iff_mem]
  constructor
  · rintro ⟨e, id, ⟨hentry, hmem⟩, rfl⟩
    exact ⟨id, e, hentry, hmem, rfl⟩
  · rintro ⟨id, e, hentry, hmem, rfl⟩
    exact ⟨e, id, ⟨hentry, hmem⟩, rfl⟩

/-- Rows are rewritten, and perhaps a quota is moved. -/
theorem Confined.rewrite {f : ℕ → Billed R → Billed R} {copies : List (Copy R)}
    (hconfined : Confined key db₀ table₀ db table applied)
    (hkey : ∀ id e, table.entries[id]? = some e → key (f id e).row = key e.row)
    (hcopies : copies.map (fun copy => (copy.id, key copy.row)) =
      table.copies.map fun copy => (copy.id, key copy.row))
    (hchanged : ∀ id e, table.entries[id]? = some e → (f id e).row ≠ e.row →
      (key e.row).taskId = "" ∨ ∃ a ∈ more, a.id = id ∧ a.task = key e.row)
    (hmoved : ∀ userId, db'.userQuota userId ≠ db.userQuota userId →
      ∃ a ∈ more, a.task.userId = userId) :
    Confined key db₀ table₀ db' { entries := table.entries.mapIdx f, copies := copies }
      (applied ++ more) := by
  have hentry : ∀ {id e'}, (table.entries.mapIdx f)[id]? = some e' →
      ∃ e, table.entries[id]? = some e ∧ f id e = e' := by
    intro id e' he'
    rw [List.getElem?_mapIdx] at he'
    exact Option.map_eq_some_iff.1 he'
  refine ⟨?_, ?_, ?_, ?_, ?_⟩
  · rw [← hconfined.keys]
    refine List.ext_getElem? fun id => ?_
    rw [List.getElem?_map, List.getElem?_map, List.getElem?_mapIdx]
    cases he : table.entries[id]? with
    | none => rfl
    | some e => exact congrArg some (hkey id e he)
  -- the copies keep the keys in their order, so that look-ups find what they found
  · rw [← hconfined.copies]
    have hsecond := congrArg (List.map Prod.snd) hcopies
    rw [List.map_map, List.map_map] at hsecond
    exact hsecond
  · intro copy hcopy
    have hmem : (copy.id, key copy.row) ∈ copies.map fun copy => (copy.id, key copy.row) :=
      List.mem_map_of_mem hcopy
    rw [hcopies] at hmem
    obtain ⟨old, hold, hsame⟩ := List.mem_map.1 hmem
    obtain ⟨hid, hrow⟩ := Prod.mk.inj hsame
    obtain ⟨e, he, htask⟩ := hconfined.backed old hold
    refine ⟨f copy.id e, ?_, ?_⟩
    · rw [List.getElem?_mapIdx, ← hid, he]
      rfl
    · rw [SameTask, ← hrow, htask, ← hid]
      exact (hkey old.id e he).symm
  · intro id e₀ e' he₀ he' hrow
    obtain ⟨e, he, rfl⟩ := hentry he'
    have hsame : key e.row = key e₀.row := hconfined.key_eq he₀ he
    -- either this step has changed the row or an earlier one has
    by_cases hnow : (f id e).row = e.row
    · rcases hconfined.changed id e₀ e he₀ he (hnow ▸ hrow) with hnull | ⟨a, ha, hid, htask⟩
      · exact .inl hnull
      · exact .inr ⟨a, List.mem_append_left _ ha, hid, htask⟩
    · rw [← hsame]
      rcases hchanged id e he hnow with hnull | ⟨a, ha, hid, htask⟩
      · exact .inl hnull
      · exact .inr ⟨a, List.mem_append_right _ ha, hid, htask⟩
  · intro userId hquota
    by_cases hnow : db'.userQuota userId = db.userQuota userId
    · obtain ⟨a, ha, huser⟩ := hconfined.moved userId (hnow ▸ hquota)
      exact ⟨a, List.mem_append_left _ ha, huser⟩
    · obtain ⟨a, ha, huser⟩ := hmoved userId hnow
      exact ⟨a, List.mem_append_right _ ha, huser⟩

/-- An `UPDATE` of rows that keeps the keys. -/
theorem Confined.updateWhere {p : ℕ → R → Bool} {f : R → R}
    (hconfined : Confined key db₀ table₀ db table applied) (hkey : ∀ row, key (f row) = key row)
    (hchanged : ∀ id e, table.entries[id]? = some e → p id e.row = true →
      (key e.row).taskId = "" ∨ ∃ a ∈ more, a.id = id ∧ a.task = key e.row) :
    Confined key db₀ table₀ db (table.updateWhere p f) (applied ++ more) := by
  refine hconfined.rewrite (fun id e _ => ?_) rfl (fun id e he hrow => ?_)
    fun userId hmoved => absurd rfl hmoved
  · split
    · exact hkey e.row
    · rfl
  · split at hrow
    case isTrue hp => exact hchanged id e he hp
    case isFalse => exact absurd rfl hrow

/-- Only the user of the movement has a quota that differs. -/
theorem PollResult.run_moved {result : PollResult R} {userId : ℕ}
    (hmoved : (result.run db).1.userQuota userId ≠ db.userQuota userId) :
    ∃ movement ∈ result.movement, movement.userId = userId := by
  unfold PollResult.run at hmoved
  cases hmovement : result.movement with
  | none =>
      rw [hmovement] at hmoved
      exact absurd rfl hmoved
  | some movement =>
      rw [hmovement] at hmoved
      refine ⟨movement, rfl, ?_⟩
      by_contra huser
      have hrun := movement.run_moved db
      cases hflag : (movement.run db).2 with
      | false => exact hmoved (by rw [hrun.still hflag])
      | true =>
          refine hmoved ?_
          show (movement.run db).1.userQuota userId = _
          rw [hrun.user hflag, bump_apply, if_neg (Ne.symm huser), Int.add_zero]

/-- Step lemma of a round. -/
theorem PollEffect.confined (heffect : PollEffect key db table more db' table')
    (hconfined : Confined key db₀ table₀ db table applied) :
    Confined key db₀ table₀ db' table' (applied ++ more) := by
  cases heffect with
  | still =>
      rw [List.append_nil]
      exact hconfined
  | null hkey hnull =>
      exact hconfined.updateWhere hkey fun id e he hp => .inl (hnull id e he hp)
  -- the update is by upstream id alone, and applies to every row that has one of them
  | gone channelId taskIds hkey =>
      refine hconfined.updateWhere hkey fun id e he hp => .inr ?_
      exact ⟨_, mem_goneTasks.2 ⟨id, e, he, List.contains_iff_mem.1 hp, rfl⟩, rfl, rfl⟩
  | @poll i copy result channelId hcopy hkey hmovement =>
      obtain ⟨e₁, he₁, htask⟩ := hconfined.backed copy (List.mem_of_getElem? hcopy)
      have hentry : ∀ {e}, table.entries[copy.id]? = some e → key e.row = key copy.row := by
        intro e he
        rw [he₁] at he
        obtain rfl := Option.some.inj he
        exact htask.symm
      refine hconfined.rewrite (fun id e he => ?_) ?_ (fun id e he hrow => ?_)
        fun userId hmoved => ?_
      · split
        case isTrue hid =>
          subst hid
          cases hsaved : result.saved with
          | true => rw [PollResult.entry_saved hsaved, hkey, hentry he]
          | false => rw [PollResult.entry_unsaved hsaved]
        case isFalse => rfl
      · show (table.copies.set i _).map _ = _
        rw [List.map_set]
        refine Pool.set_self ?_
        rw [List.getElem?_map, hcopy, Option.map_some, hkey]
      · split at hrow
        case isTrue hid =>
          subst hid
          exact .inr ⟨_, List.mem_singleton.2 rfl, rfl, (hentry he).symm⟩
        case isFalse => exact absurd rfl hrow
      · obtain ⟨movement, hmem, huser⟩ := PollResult.run_moved hmoved
        exact ⟨_, List.mem_singleton.2 rfl, (hmovement movement hmem).symm.trans huser⟩

/-- What a round has done to the tables belongs to tasks that a response of their own channel was
applied to. -/
structure OwnRound (key : R → TaskKey) (db₀ : DB) (table₀ : Table R) (db : DB) (table : Table R)
    (applied : List Applied) : Prop where
  own : ∀ a ∈ applied, a.Own
  changed : ∀ id e e', table₀.entries[id]? = some e → table.entries[id]? = some e' →
    e'.row ≠ e.row → (key e.row).taskId = "" ∨ ∃ a ∈ applied, a.id = id ∧ a.task = key e.row
  moved : ∀ userId, db.userQuota userId ≠ db₀.userQuota userId →
    ∃ a ∈ applied, a.task.userId = userId

theorem Confined.ownRound_iff (hconfined : Confined key db₀ table₀ db table applied) :
    OwnRound key db₀ table₀ db table applied ↔ ∀ a ∈ applied, a.Own :=
  ⟨OwnRound.own, fun hown => ⟨hown, hconfined.changed, hconfined.moved⟩⟩

/-- A bulk update meets only tasks of the channel. -/
theorem Confined.goneTasks_own (hconfined : Confined key db₀ table₀ db table applied)
    {channelId : ℕ} {taskIds : List String} :
    (∀ a ∈ goneTasks key table.entries channelId taskIds, a.Own) ↔
      ∀ e ∈ table₀.entries, (key e.row).taskId ∈ taskIds → (key e.row).channelId = channelId := by
  have hkeys : (∀ e ∈ table.entries, (key e.row).taskId ∈ taskIds →
      (key e.row).channelId = channelId) ↔ ∀ e ∈ table₀.entries, (key e.row).taskId ∈ taskIds →
        (key e.row).channelId = channelId := by
    have hnow := List.forall_mem_map (f := fun e : Billed R => key e.row) (l := table.entries)
      (P := fun task => task.taskId ∈ taskIds → task.channelId = channelId)
    have hstart := List.forall_mem_map (f := fun e : Billed R => key e.row) (l := table₀.entries)
      (P := fun task => task.taskId ∈ taskIds → task.channelId = channelId)
    rw [← hnow, ← hstart, hconfined.keys]
  rw [← hkeys]
  constructor
  · intro hown e he hmem
    obtain ⟨id, hid⟩ := List.mem_iff_getElem?.1 he
    exact (hown _ (mem_goneTasks.2 ⟨id, e, hid, hmem, rfl⟩)).1
  · intro hown a ha
    obtain ⟨id, e, hid, hmem, rfl⟩ := mem_goneTasks.1 ha
    exact ⟨hown e (List.mem_of_getElem? hid) hmem, rfl⟩

/-! ## Runs of a round -/

variable {σ ι : Type} (key) (alive : σ → Bool) (db : σ → DB) (table : σ → Table R)

/-- The round is under way since the selection `s₀`. -/
structure RoundFrom (s₀ : σ) (p : Polling σ) : Prop where
  alive : alive p.state = true
  confined : Confined key (db s₀) (table s₀) (db p.state) (table p.state) p.applied

variable {key alive db table} {M : System (Polling σ) ι} {s₀ : σ}

/-- A step of a round takes it on. -/
theorem RoundFrom.next {p p' : Polling σ} (hround : RoundFrom key alive db table s₀ p)
    (halive : alive p'.state = true) (happlied : p'.applied = p.applied ++ more)
    (heffect : PollEffect key (db p.state) (table p.state) more (db p'.state) (table p'.state)) :
    RoundFrom key alive db table s₀ p' := by
  refine ⟨halive, ?_⟩
  rw [happlied]
  exact heffect.confined hround.confined

/-- Run rule: the steps of a round are taken to the end and keep to the tasks of their channels
exactly if each of them does, by what the round begins with. -/
theorem round_run_iff {C : ι → Prop}
    (hnext : ∀ {p step p'}, M.step p step = some p' → RoundFrom key alive db table s₀ p →
      RoundFrom key alive db table s₀ p')
    (hown : ∀ {p step}, RoundFrom key alive db table s₀ p →
      ((∃ p', M.step p step = some p' ∧ ∀ a ∈ p'.applied, a.Own) ↔
        (∀ a ∈ p.applied, a.Own) ∧ C step))
    (halive : alive s₀ = true)
    (hselected : ∀ copy ∈ (table s₀).copies, ∃ e, (table s₀).entries[copy.id]? = some e ∧
      copy.row = e.row) (steps : List ι) :
    (∃ p, M.run ⟨s₀, []⟩ steps = some p ∧
      OwnRound key (db s₀) (table s₀) (db p.state) (table p.state) p.applied) ↔
      ∀ step ∈ steps, C step := by
  have hstart : RoundFrom key alive db table s₀ ⟨s₀, []⟩ := ⟨halive, .start hselected⟩
  have hnothing : OwnRound key (db s₀) (table s₀) (db s₀) (table s₀) [] :=
    hstart.confined.ownRound_iff.2 fun a ha => absurd ha List.not_mem_nil
  rw [System.run_iff_forall (C := C) (I := RoundFrom key alive db table s₀)
    (P := fun p => OwnRound key (db s₀) (table s₀) (db p.state) (table p.state) p.applied)
    hnext ?_ hstart]
  · exact and_iff_right hnothing
  · intro p step hround
    rw [hround.confined.ownRound_iff, ← hown hround]
    refine exists_congr fun p' => and_congr_right fun hstep => ?_
    exact (hnext hstep hround).confined.ownRound_iff

end

end NewApi.Model
