import NewApi.Model.TopUp

/-!
# The status of a top-up order

An order starts out pending and ends as successful or expired.  Every execution but
`sessionExpired` refuses an order that it does not select as pending; `sessionExpired` only logs
it and goes on.  What an execution saves is the copy that it selected, so the guard on the copy is
worth nothing once another execution has written the order.
-/

namespace NewApi.Model

open NewApi.Lib

namespace TopUpState

variable {F : Type}

/-- The status stays, or moves on from pending. -/
def StatusMoves (s s' : TopUpState F) : Prop :=
  s'.topUp.status = s.topUp.status ∨
    s.topUp.status = TopUpStatusPending ∧
      (s'.topUp.status = TopUpStatusSuccess ∨ s'.topUp.status = TopUpStatusExpired)

theorem StatusMoves.refl (s : TopUpState F) : StatusMoves s s :=
  .inl rfl

theorem StatusMoves.trans {s t u : TopUpState F} (hfirst : StatusMoves s t)
    (hsecond : StatusMoves t u) : StatusMoves s u := by
  rcases hfirst with hsame | ⟨hpending, hended⟩
  · unfold StatusMoves at hsecond ⊢
    rw [← hsame]
    exact hsecond
  · rcases hsecond with hstays | ⟨hagain, -⟩
    · unfold StatusMoves
      rw [hstays]
      exact .inr ⟨hpending, hended⟩
    · -- A status that has moved is not pending any more.
      rw [hagain] at hended
      exact absurd hended (by decide)

/-- The condition on a step: a session that expires is not that of a successful order, and an
execution that saves its copy finds the order with the status that it selected. -/
def SavesSelected (s : TopUpState F) : TopUpAction → Prop
  | .advance i ok =>
      match s.procs[i]? with
      | some (.selecting .sessionExpired) => ok = true → s.topUp.status ≠ TopUpStatusSuccess
      | some (.saving .sessionExpired topUp) => ok = true → topUp.status = s.topUp.status
      | some (.saving .epayNotify topUp) => ok = true → topUp.status = s.topUp.status
      | some (.committing _ topUp _) => ok = true → topUp.status = s.topUp.status
      | _ => True
  | .start _ => True

instance (s : TopUpState F) : DecidablePred s.SavesSelected
  | .start _ => inferInstanceAs (Decidable True)
  | .advance i ok => by
      dsimp only [SavesSelected]
      exact match s.procs[i]? with
        | some (.selecting op) => by cases op <;> infer_instance
        | some (.saving op _) => by cases op <;> infer_instance
        | some (.committing ..) => inferInstanceAs (Decidable (_ → _))
        | some (.locking _) | some (.selectingUser ..) | some (.crediting ..) | some .returned
        | none => inferInstanceAs (Decidable True)

/-- The status of the copy that an execution may save. -/
def HoldsOpen : TopUpProc F → Prop
  | .saving .sessionExpired topUp =>
      topUp.status = TopUpStatusPending ∨ topUp.status = TopUpStatusExpired
  | proc => ∀ topUp, proc.copy = some topUp → topUp.status = TopUpStatusPending

/-- What holds of an order as long as what is saved is what was selected. -/
structure StatusInv (s : TopUpState F) : Prop where
  known : s.topUp.status = TopUpStatusPending ∨ s.topUp.status = TopUpStatusSuccess ∨
    s.topUp.status = TopUpStatusExpired
  forCredit : ∀ proc ∈ s.procs, Credits proc
  copies : ∀ proc ∈ s.procs, HoldsOpen proc

section

variable [Float64 F] {cfg : TopUpConfig F} {s s' : TopUpState F} {i : ℕ} {ok : Bool}
  {proc : TopUpProc F} {a : TopUpAction}

/-- An order that is selected is saved only when it is pending, or its session expires. -/
theorem afterSelect_cases (cfg : TopUpConfig F) (topUp : TopUp F) (op : TopUpOp) :
    op.afterSelect cfg topUp = .returned ∨
      op.afterSelect cfg topUp = .saving op topUp ∧
        (op = .sessionExpired ∨ topUp.status = TopUpStatusPending) := by
  unfold TopUpOp.afterSelect
  split
  case h_1 => exact .inr ⟨rfl, .inl rfl⟩
  case h_2 =>
    split
    · exact .inl rfl
    split
    · exact .inl rfl
    case isFalse hpending =>
      split
      · exact .inl rfl
      · exact .inr ⟨rfl, .inr (not_not.1 hpending)⟩
  case h_3 =>
    split
    case isTrue hpending => exact .inr ⟨rfl, .inr hpending⟩
    case isFalse => exact .inl rfl

omit [Float64 F] in
/-- A pending copy is open for every operation. -/
theorem holdsOpen_of_pending (hpending : ∀ topUp, proc.copy = some topUp →
    topUp.status = TopUpStatusPending) : HoldsOpen proc := by
  unfold HoldsOpen
  split
  case h_1 topUp => exact .inl (hpending topUp rfl)
  case h_2 => exact hpending

omit [Float64 F] in
/-- An execution without a copy has nothing to save. -/
theorem holdsOpen_of_copy_eq_none (hcopy : proc.copy = none) : HoldsOpen proc := by
  refine holdsOpen_of_pending fun topUp hheld => ?_
  rw [hcopy] at hheld
  cases hheld

theorem afterSelect_open {topUp : TopUp F} {op : TopUpOp}
    (hopen : op = .sessionExpired →
      topUp.status = TopUpStatusPending ∨ topUp.status = TopUpStatusExpired) :
    HoldsOpen (op.afterSelect cfg topUp) := by
  rcases afterSelect_cases cfg topUp op with hreturned | ⟨hsaving, hop | hpending⟩
  · rw [hreturned]
    exact holdsOpen_of_copy_eq_none rfl
  · rw [hsaving, hop]
    exact hopen hop
  · rw [hsaving]
    refine holdsOpen_of_pending fun held hheld => ?_
    rw [← Option.some.inj hheld]
    exact hpending

omit [Float64 F] in
theorem HoldsOpen.pending {topUp : TopUp F} (hopen : HoldsOpen proc)
    (hsession : proc ≠ .saving .sessionExpired topUp) (hcopy : proc.copy = some topUp) :
    topUp.status = TopUpStatusPending := by
  unfold HoldsOpen at hopen
  split at hopen
  case h_1 expired =>
    obtain rfl := Option.some.inj hcopy
    exact absurd rfl hsession
  case h_2 => exact hopen topUp hcopy

/-- A quiet step of an execution keeps its copy open. -/
theorem Quiet.holdsOpen {proc' : TopUpProc F} (hquiet : Quiet cfg s s' i ok proc proc')
    (hproc : s.procs[i]? = some proc) (hsaves : s.SavesSelected (.advance i ok))
    (hinv : StatusInv s) : HoldsOpen proc' := by
  by_cases hselected : ∃ op, proc = .selecting op ∧ ok = true ∧ proc' = op.afterSelect cfg s.topUp
  · obtain ⟨op, rfl, hok, rfl⟩ := hselected
    refine afterSelect_open ?_
    rintro rfl
    have hstatus : s.topUp.status ≠ TopUpStatusSuccess := by
      simpa [SavesSelected, hproc, hok] using hsaves
    exact hinv.known.imp_right fun hknown => hknown.resolve_left hstatus
  · refine holdsOpen_of_pending fun topUp htopUp => ?_
    rcases hquiet.copy topUp htopUp with ⟨op, hop, hok, hproc', -⟩ | ⟨hcopy, hsession⟩
    · exact absurd ⟨op, hop, hok, hproc'⟩ hselected
    · exact (hinv.copies proc (List.mem_of_getElem? hproc)).pending hsession hcopy

/-- Step lemma: the status moves on from pending only. -/
theorem step_status (hstep : s.step cfg a = some s') (hsaves : s.SavesSelected a)
    (hinv : StatusInv s) :
    StatusMoves s s' ∧ (∀ proc ∈ s'.procs, Credits proc) ∧ ∀ proc ∈ s'.procs, HoldsOpen proc := by
  cases a with
  | start op =>
      obtain rfl := Option.some.inj hstep
      have hbegin : Credits (begin_ op : TopUpProc F) ∧ HoldsOpen (begin_ op : TopUpProc F) := by
        cases op <;> exact ⟨trivial, holdsOpen_of_copy_eq_none rfl⟩
      exact ⟨.inl rfl,
        List.forall_mem_append.2 ⟨hinv.forCredit, List.forall_mem_singleton.2 hbegin.1⟩,
        List.forall_mem_append.2 ⟨hinv.copies, List.forall_mem_singleton.2 hbegin.2⟩⟩
  | advance i ok =>
      obtain ⟨proc, hproc, hadvance⟩ := Option.bind_eq_some_iff.1 hstep
      have hmem := List.mem_of_getElem? hproc
      have hopen := hinv.copies proc hmem
      have hforCredit := hinv.forCredit proc hmem
      -- the executions after the step
      have hprocs' {proc'} (hprocs : s'.procs = s.procs.set i proc') (hcredits : Credits proc')
          (hopen' : HoldsOpen proc') :
          (∀ proc ∈ s'.procs, Credits proc) ∧ ∀ proc ∈ s'.procs, HoldsOpen proc := by
        rw [hprocs]
        exact ⟨Pool.forall_mem_set hinv.forCredit hcredits, Pool.forall_mem_set hinv.copies hopen'⟩
      have hreturned : HoldsOpen (.returned : TopUpProc F) := holdsOpen_of_copy_eq_none rfl
      rcases advance_cases hforCredit hadvance with
        ⟨proc', hquiet⟩ | ⟨topUp, rfl, rfl, htopUp, -, -, hprocs⟩ |
        ⟨topUp, rfl, rfl, htopUp, -, -, hprocs⟩ |
        ⟨topUp, setEmail, rfl, -, rfl⟩ |
        ⟨op, topUp, setEmail, hwrite, -, -, hprocs⟩
      · exact ⟨.inl (by rw [hquiet.topUp]),
          hprocs' hquiet.procs hquiet.forCredit (hquiet.holdsOpen hproc hsaves hinv)⟩
      · -- The session of an order that is still open expires.
        have hsame : topUp.status = s.topUp.status := by
          simpa [SavesSelected, hproc] using hsaves
        refine ⟨?_, hprocs' hprocs trivial hreturned⟩
        rcases hopen with hpending | hexpired
        · exact .inr ⟨hsame ▸ hpending, .inr (by rw [htopUp]; rfl)⟩
        · exact .inl (by rw [htopUp, ← hsame, hexpired]; rfl)
      · -- `EpayNotify` saves the order as successful.
        have hsame : topUp.status = s.topUp.status := by
          simpa [SavesSelected, hproc] using hsaves
        exact ⟨.inr ⟨hsame ▸ hopen topUp rfl, .inl (by rw [htopUp]; rfl)⟩,
          hprocs' hprocs TopUpOp.noConfusion hopen⟩
      · exact ⟨.inl rfl, hprocs' rfl trivial hreturned⟩
      · refine ⟨?_, hprocs' hprocs trivial hreturned⟩
        rcases hwrite with ⟨-, -, htopUp⟩ | ⟨rfl, hok, htopUp⟩
        · exact .inl (by rw [htopUp])
        · -- A transaction commits the order as successful.
          have hsame : topUp.status = s.topUp.status := by
            simpa [SavesSelected, hproc, hok] using hsaves
          have hsuccess : s'.topUp.status = TopUpStatusSuccess := by
            rw [htopUp]
            exact complete_status hforCredit.1
          exact .inr ⟨hsame ▸ hopen topUp rfl, .inl hsuccess⟩

theorem step_statusInv (hstep : s.step cfg a = some s') (hsaves : s.SavesSelected a)
    (hinv : StatusInv s) : StatusInv s' := by
  obtain ⟨hmoves, hforCredit, hopen⟩ := step_status hstep hsaves hinv
  refine ⟨?_, hforCredit, hopen⟩
  rcases hmoves with hsame | ⟨-, hended⟩
  · rw [hsame]
    exact hinv.known
  · exact .inr hended

/-- Run lemma: the same for a whole run. -/
theorem run_status {as : List TopUpAction}
    (hsaves : (topUpOrder cfg).Along SavesSelected s as)
    (hrun : (topUpOrder cfg).run s as = some s') (hinv : StatusInv s) :
    StatusMoves s s' ∧ StatusInv s' :=
  System.invariant_run (I := fun t => StatusMoves s t ∧ StatusInv t)
    (fun hstep hsaves hinv => ⟨hinv.1.trans (step_status hstep hsaves hinv.2).1,
      step_statusInv hstep hsaves hinv.2⟩)
    ⟨.refl s, hinv⟩ hsaves hrun

end

end TopUpState

open TopUpState

/-- From every state that a pending order reaches, its status stays or moves from pending to
success or expired, as long as only open orders expire and what is saved is what was selected. -/
theorem order_status_terminal {F : Type} [Float64 F] {cfg : TopUpConfig F} {topUp : TopUp F}
    {user : TopUpUser} {before after : List TopUpAction} {s s' : TopUpState F}
    (hpending : topUp.status = TopUpStatusPending)
    (hsaves : (topUpOrder cfg).Along SavesSelected (start topUp user) (before ++ after))
    (hbefore : (topUpOrder cfg).run (start topUp user) before = some s)
    (hafter : (topUpOrder cfg).run s after = some s') : StatusMoves s s' := by
  obtain ⟨hfirst, hsecond⟩ := System.along_append hbefore hsaves
  have hstart : StatusInv (start topUp user) := ⟨.inl hpending, nofun, nofun⟩
  obtain ⟨-, hinv⟩ := run_status hfirst hbefore hstart
  exact (run_status hsecond hafter hinv).1

/-- The order is paid. -/
def paidTopUpRun : List TopUpAction :=
  [.start (.recharge "cus"), .advance 0 true, .advance 0 true, .advance 0 true, .advance 0 true]

/-- A second notification comes, and a session whose order is not read expires. -/
def lateTopUpRun : List TopUpAction :=
  [.start .epayNotify, .advance 1 true, .advance 1 true, .start .sessionExpired, .advance 2 false]

theorem order_status_terminal_paid :
    ∃ s s', (topUpOrder sampleTopUpConfig).run (start sampleOrder sampleUserRow) paidTopUpRun =
        some s ∧
      (topUpOrder sampleTopUpConfig).run s lateTopUpRun = some s' ∧
      s.topUp.status = TopUpStatusSuccess ∧ StatusMoves s s' := by
  have hsaves : (topUpOrder sampleTopUpConfig).Along SavesSelected
      (start sampleOrder sampleUserRow) (paidTopUpRun ++ lateTopUpRun) := by
    decide
  exact ⟨_, _, rfl, rfl, rfl, order_status_terminal rfl hsaves rfl rfl⟩

/-- The session of a paid order expires. -/
def expiredTopUpRun : List TopUpAction :=
  [.start .sessionExpired, .advance 1 true, .advance 1 true]

/-- A paid order is expired by its session. -/
theorem paid_order_expires :
    ¬ ∀ (cfg : TopUpConfig Decimal) (topUp : TopUp Decimal) (user : TopUpUser)
      (before after : List TopUpAction) (s s' : TopUpState Decimal),
      topUp.status = TopUpStatusPending →
      (topUpOrder cfg).run (start topUp user) before = some s →
      (topUpOrder cfg).run s after = some s' → StatusMoves s s' := by
  intro hclaim
  have hmoves := hclaim sampleTopUpConfig sampleOrder sampleUserRow paidTopUpRun expiredTopUpRun
    _ _ rfl rfl rfl
  rcases hmoves with hsame | ⟨hpending, -⟩
  · exact absurd hsame (by decide)
  · exact absurd hpending (by decide)

end NewApi.Model
