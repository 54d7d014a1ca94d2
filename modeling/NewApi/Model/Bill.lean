import NewApi.Lib.Pool
import NewApi.Model.Billing

/-!
# The bill of a request

A bill records what a request or task was charged when it was submitted and what the polling
code moved afterwards.  `Booked` relates the quota columns to the bills: every movement of a
column is on a bill, and everything on a bill has moved a column.
-/

namespace NewApi.Model

open NewApi.Lib

/-- A successful task is charged the difference to its recomputed quota. -/
structure Resettlement where
  actualQuota : ℤ
  quotaDelta : ℤ
deriving DecidableEq

structure Bill where
  payer : Payer
  charged : ℤ
  refunds : List ℤ
  resettlements : List Resettlement
deriving DecidableEq

namespace Bill

/-- The bill of a submission. -/
def submitted (payer : Payer) (charged : ℤ) : Bill where
  payer := payer
  charged := charged
  refunds := []
  resettlements := []

@[simps]
def refund (bill : Bill) (quota : ℤ) : Bill :=
  { bill with
    refunds := bill.refunds ++ [quota] }

@[simps]
def resettle (bill : Bill) (resettlement : Resettlement) : Bill :=
  { bill with
    resettlements := bill.resettlements ++ [resettlement] }

/-- What the user has paid. -/
def userNet (bill : Bill) : ℤ :=
  bill.charged + total Resettlement.quotaDelta bill.resettlements - bill.refunds.sum

/-- What the token has paid. -/
def tokenNet (bill : Bill) : ℤ :=
  if bill.payer.isPlayground then 0 else bill.charged

/-- The part of the bill that the user with this id has paid. -/
def userShare (userId : ℕ) (bill : Bill) : ℤ :=
  if bill.payer.userId = userId then bill.userNet else 0

/-- The part of the bill that the token with this id has paid. -/
def tokenShare (tokenId : ℕ) (bill : Bill) : ℤ :=
  if bill.payer.tokenId = tokenId then bill.tokenNet else 0

/-- Nothing has been moved since the submission. -/
def Untouched (bill : Bill) : Prop :=
  bill.refunds = [] ∧ bill.resettlements = []

/-- What a failure refunds: the charge, once. -/
def refundDue (bill : Bill) : List ℤ :=
  if bill.charged = 0 then [] else [bill.charged]

theorem refundDue_of_free {bill : Bill} (hfree : bill.charged = 0) : bill.refundDue = [] :=
  if_pos hfree

theorem refundDue_of_charged {bill : Bill} (hcharged : bill.charged ≠ 0) :
    bill.refundDue = [bill.charged] :=
  if_neg hcharged

theorem submitted_untouched (payer : Payer) (charged : ℤ) : (submitted payer charged).Untouched :=
  ⟨rfl, rfl⟩

theorem submitted_userNet (payer : Payer) (charged : ℤ) :
    (submitted payer charged).userNet = charged := by
  show charged + 0 - 0 = charged
  omega

theorem refund_userNet (bill : Bill) (quota : ℤ) :
    (bill.refund quota).userNet = bill.userNet - quota := by
  simp only [userNet, refund, List.sum_append, List.sum_singleton]
  omega

theorem resettle_userNet (bill : Bill) (resettlement : Resettlement) :
    (bill.resettle resettlement).userNet = bill.userNet + resettlement.quotaDelta := by
  simp only [userNet, resettle, Pool.total_append, Pool.total_cons, Pool.total_nil]
  omega

end Bill

/-- The columns have moved by what the bills have changed. -/
structure Booked (db db' : DB) (bills bills' : List Bill) : Prop where
  user : ∀ id, db'.userQuota id + total (Bill.userShare id) bills' =
    db.userQuota id + total (Bill.userShare id) bills
  token : ∀ id, db'.tokenRemainQuota id + total (Bill.tokenShare id) bills' =
    db.tokenRemainQuota id + total (Bill.tokenShare id) bills
  tokenUsed : ∀ id, db'.tokenUsedQuota id - total (Bill.tokenShare id) bills' =
    db.tokenUsedQuota id - total (Bill.tokenShare id) bills

namespace Booked

variable {db db' db'' : DB} {bills bills' bills'' : List Bill}

theorem refl (db : DB) (bills : List Bill) : Booked db db bills bills :=
  ⟨fun _ => rfl, fun _ => rfl, fun _ => rfl⟩

theorem trans (hfirst : Booked db db' bills bills') (hsecond : Booked db' db'' bills' bills'') :
    Booked db db'' bills bills'' :=
  ⟨fun id => (hsecond.user id).trans (hfirst.user id),
    fun id => (hsecond.token id).trans (hfirst.token id),
    fun id => (hsecond.tokenUsed id).trans (hfirst.tokenUsed id)⟩

/-- What is booked among some bills is booked among any bills that contain them. -/
theorem frame (before after : List Bill) (hbooked : Booked db db' bills bills') :
    Booked db db' (before ++ bills ++ after) (before ++ bills' ++ after) := by
  refine ⟨fun id => ?_, fun id => ?_, fun id => ?_⟩
  · have huser := hbooked.user id
    simp only [Pool.total_append]
    omega
  · have htoken := hbooked.token id
    simp only [Pool.total_append]
    omega
  · have hused := hbooked.tokenUsed id
    simp only [Pool.total_append]
    omega

/-- A charge opens a bill. -/
theorem charge {payer : Payer} {amount : ℤ} (hcharged : Charged payer amount db db')
    (bills : List Bill) : Booked db db' bills (bills ++ [.submitted payer amount]) := by
  have huserShare : ∀ id, total (Bill.userShare id) [.submitted payer amount] =
      if payer.userId = id then amount else 0 := by
    intro id
    rw [Pool.total_cons, Pool.total_nil, Bill.userShare, Bill.submitted_userNet]
    exact Int.add_zero _
  have htokenShare : ∀ id, total (Bill.tokenShare id) [.submitted payer amount] =
      if payer.tokenId = id then (if payer.isPlayground then 0 else amount) else 0 := by
    intro id
    rw [Pool.total_cons, Pool.total_nil]
    exact Int.add_zero _
  refine ⟨fun id => ?_, fun id => ?_, fun id => ?_⟩
  · rw [Pool.total_append, huserShare, hcharged.user, bump_apply]
    simp only [eq_comm (a := id)]
    split <;> omega
  · rw [Pool.total_append, htokenShare, hcharged.token]
    cases payer.isPlayground with
    | true => simp
    | false =>
        simp only [Bool.false_eq_true, if_false, bump_apply, eq_comm (a := id)]
        split <;> omega
  · rw [Pool.total_append, htokenShare, hcharged.tokenUsed]
    cases payer.isPlayground with
    | true => simp
    | false =>
        simp only [Bool.false_eq_true, if_false, bump_apply, eq_comm (a := id)]
        split <;> omega

/-- A movement of one user's quota is booked when that user's bill takes it. -/
theorem moveUser {i : ℕ} {bill bill' : Bill} {amount : ℤ} (hbill : bills[i]? = some bill)
    (hpayer : bill'.payer = bill.payer) (hcharged : bill'.charged = bill.charged)
    (hnet : bill'.userNet = bill.userNet - amount)
    (huser : db'.userQuota = bump db.userQuota bill.payer.userId amount)
    (htoken : db'.tokenRemainQuota = db.tokenRemainQuota)
    (hused : db'.tokenUsedQuota = db.tokenUsedQuota) :
    Booked db db' bills (bills.set i bill') := by
  have htokenShare : ∀ id, bill'.tokenShare id = bill.tokenShare id := by
    intro id
    rw [Bill.tokenShare, Bill.tokenShare, Bill.tokenNet, Bill.tokenNet, hpayer, hcharged]
  refine ⟨fun id => ?_, fun id => ?_, fun id => ?_⟩
  · rw [Pool.total_set hbill, Bill.userShare, Bill.userShare, hpayer, hnet, huser, bump_apply]
    simp only [eq_comm (a := id)]
    split <;> omega
  · rw [Pool.total_set hbill, htokenShare, htoken]
    omega
  · rw [Pool.total_set hbill, htokenShare, hused]
    omega

end Booked

end NewApi.Model
