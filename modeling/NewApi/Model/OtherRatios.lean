import NewApi.Lib.ExactFloat
import NewApi.Model.TextQuota

/-!
# The other ratios of a request

Adaptors record ratios besides those of the model and the group in a map of the price data.  A later
record of a key replaces an earlier one, and one that is not positive is dropped.
-/

namespace NewApi.Model

open NewApi.Lib
open FiniteFloat (val)

section

variable {F : Type} [Float64 F]

/-- `PriceData.AddOtherRatio`, on the map. -/
def addOtherRatio (others : List (String × F)) (record : String × F) : List (String × F) :=
  if Float64.le record.2 (Float64.ofInt 0) then others
  else others.filter (fun other => other.1 ≠ record.1) ++ [record]

/-- The map after some records. -/
def addOtherRatios (others : List (String × F)) (records : List (String × F)) : List (String × F) :=
  records.foldl addOtherRatio others

@[simp] theorem addOtherRatios_nil (others : List (String × F)) : addOtherRatios others [] = others :=
  rfl

@[simp] theorem addOtherRatios_cons (others : List (String × F)) (record : String × F)
    (records : List (String × F)) :
    addOtherRatios others (record :: records) =
      addOtherRatios (addOtherRatio others record) records :=
  rfl

theorem addOtherRatios_append (others first second : List (String × F)) :
    addOtherRatios others (first ++ second) = addOtherRatios (addOtherRatios others first) second :=
  List.foldl_append

end

section

variable {F : Type} [Float64 F] [FiniteFloat F]

theorem addOtherRatio_pos (others : List (String × F)) {record : String × F}
    (hpos : 0 < val record.2) :
    addOtherRatio others record = others.filter (fun other => other.1 ≠ record.1) ++ [record] := by
  refine if_neg ?_
  rw [FiniteFloat.le_iff, FiniteFloat.val_zero, not_le]
  exact hpos

theorem addOtherRatio_nonpos (others : List (String × F)) {record : String × F}
    (hnonpos : val record.2 ≤ 0) : addOtherRatio others record = others := by
  refine if_pos ?_
  rw [FiniteFloat.le_iff, FiniteFloat.val_zero]
  exact hnonpos

/-- The keys that some records set. -/
def recordedKeys (records : List (String × F)) : List String :=
  (addOtherRatios [] records).map Prod.fst

/-- What is left of a map under some records: the keys that they do not set. -/
def leftOver (others records : List (String × F)) : List (String × F) :=
  others.filter fun other => other.1 ∉ recordedKeys records

theorem mem_recordedKeys_append (records : List (String × F)) {record : String × F}
    (hpos : 0 < val record.2) (key : String) :
    key ∈ recordedKeys (records ++ [record]) ↔ key ∈ recordedKeys records ∨ key = record.1 := by
  unfold recordedKeys
  rw [addOtherRatios_append, addOtherRatios_cons, addOtherRatios_nil, addOtherRatio_pos _ hpos,
    List.map_append, List.mem_append, List.map_singleton, List.mem_singleton]
  by_cases hkey : key = record.1
  · exact iff_of_true (.inr hkey) (.inr hkey)
  · rw [or_iff_left hkey, or_iff_left hkey, List.mem_map, List.mem_map]
    constructor
    · intro h
      obtain ⟨other, hother, rfl⟩ := h
      exact ⟨other, List.mem_of_mem_filter hother, rfl⟩
    · intro h
      obtain ⟨other, hother, rfl⟩ := h
      exact ⟨other, List.mem_filter.2 ⟨hother, decide_eq_true hkey⟩, rfl⟩

/-- After some records the map holds what is left of it and what they set. -/
theorem addOtherRatios_perm (others records : List (String × F)) :
    (addOtherRatios others records).Perm (leftOver others records ++ addOtherRatios [] records) := by
  induction records using List.reverseRecOn with
  | nil =>
      have hall : leftOver others [] = others := List.filter_eq_self.2 fun _ _ => rfl
      rw [hall, addOtherRatios_nil, addOtherRatios_nil, List.append_nil]
  | append_singleton records record ih =>
      have hset (initial : List (String × F)) : addOtherRatios initial (records ++ [record]) =
          addOtherRatio (addOtherRatios initial records) record := addOtherRatios_append _ _ _
      rcases le_or_gt (val record.2) 0 with hnonpos | hpos
      · -- a dropped record changes neither map
        have hsame : leftOver others (records ++ [record]) = leftOver others records := by
          unfold leftOver recordedKeys
          rw [hset, addOtherRatio_nonpos _ hnonpos]
        rw [hset, hset, hsame, addOtherRatio_nonpos _ hnonpos, addOtherRatio_nonpos _ hnonpos]
        exact ih
      · have hleft : leftOver others (records ++ [record]) =
            (leftOver others records).filter fun other => other.1 ≠ record.1 := by
          unfold leftOver
          rw [List.filter_filter]
          refine List.filter_congr fun other _ => ?_
          rw [← Bool.decide_and, decide_eq_decide, mem_recordedKeys_append records hpos, not_or,
            and_comm]
        rw [hset, hset, hleft, addOtherRatio_pos _ hpos, addOtherRatio_pos _ hpos,
          ← List.append_assoc, ← List.filter_append]
        exact (ih.filter _).append_right [record]

/-- The product splits into what is left and what is set. -/
theorem otherProduct_addOtherRatios (others records : List (String × F)) :
    otherProduct (addOtherRatios others records) =
      otherProduct (leftOver others records) * otherProduct (addOtherRatios [] records) := by
  rw [← otherProduct_append]
  exact ((addOtherRatios_perm others records).map _).prod_eq

end

end NewApi.Model
