import Mathlib.Algebra.BigOperators.Fin
import NewApi.Model.ChannelSatisfy

/-!
# The shares of a weighted selection

Both selections walk through the weights of one priority level until a random number is used up,
and mean to give each row as many numbers as it weighs.  `GetRandomSatisfiedChannel` stops when the
rest is negative, and does so exactly.  `GetChannel` stops already at zero, which gives the first
row one number more than its weight and the last one less.
-/

namespace NewApi.Model

open NewApi.Lib NewApi.Lib.Choice

/-! ## The memory cache -/

/-- What a channel of the level weighs after smoothing. -/
def smoothedWeight (targetChannels : List Channel) (channel : Channel) : ℕ :=
  let s := smoothing (weight Channel.getWeight targetChannels) targetChannels.length
  channel.getWeight * s.smoothingFactor + s.smoothingAdjustment

/-- The range of the random number. -/
def totalWeight (targetChannels : List Channel) : ℕ :=
  let s := smoothing (weight Channel.getWeight targetChannels) targetChannels.length
  s.sumWeight * s.smoothingFactor

theorem weight_smoothedWeight (targetChannels : List Channel) :
    weight (smoothedWeight targetChannels) targetChannels = totalWeight targetChannels :=
  (smoothing_spec targetChannels).1

namespace ChannelCache

/-- The channels that the lists name for a group and a model. -/
def satisfiedChannels (cache : ChannelCache) (group model : String) : List Channel :=
  (cache.satisfied group model).filterMap cache.channelsIDM

/-- The channels of the priority level of a retry. -/
def targetChannels (cache : ChannelCache) (group model : String) (retry : ℕ) : List Channel :=
  onLevel (cache.satisfiedChannels group model) retry

variable {cache : ChannelCache} {group model : String}

theorem satisfiedChannels_ne_nil (hids : cache.satisfied group model ≠ [])
    (hcached : ∀ id ∈ cache.satisfied group model, ∃ channel,
      cache.channelsIDM id = some channel) : cache.satisfiedChannels group model ≠ [] := by
  obtain ⟨id, hid⟩ := List.exists_mem_of_ne_nil _ hids
  obtain ⟨channel, hchannel⟩ := hcached id hid
  exact List.ne_nil_of_mem (List.mem_filterMap.2 ⟨id, hid, hchannel⟩)

theorem totalWeight_pos {channels : List Channel} (hchannels : channels ≠ []) :
    0 < totalWeight channels := by
  have hlength := List.length_pos_iff.2 hchannels
  unfold totalWeight smoothing
  dsimp only
  split_ifs with hzero hsmall
  · show 0 < channels.length * 100 * 1
    omega
  · show 0 < weight Channel.getWeight channels * 100
    omega
  · show 0 < weight Channel.getWeight channels * 1
    omega

/-- The draw of a number stops at its place. -/
theorem drawChannel_constRand {channels : List Channel} (hchannels : channels ≠ []) {r : ℕ}
    (hr : r < totalWeight channels) : ∃ i channel,
      drawPlace (smoothedWeight channels) r channels = some i ∧ channels[i]? = some channel ∧
        drawChannel (constRand r) channels = some channel := by
  obtain ⟨channel, hdraw⟩ := drawChannel_total hchannels (constRand r)
  have hwalk : draw (smoothedWeight channels) r channels = some channel := by
    rw [← hdraw]
    have hconst : (constRand r).intn (totalWeight channels) = r := constRand_intn hr
    unfold totalWeight at hconst
    unfold drawChannel
    dsimp only at hconst ⊢
    rw [hconst]
    rfl
  rw [draw_eq_place, Option.bind_eq_some_iff] at hwalk
  obtain ⟨i, hplace, hchannel⟩ := hwalk
  exact ⟨i, channel, hplace, hchannel, hdraw⟩

end ChannelCache

/-- Two channels of the same priority, of which the second weighs twice as much as the first, and
one below them. -/
def weightedChannelTable : ChannelTable where
  rows :=
    [{ sampleCachedChannel 1 false with weight := some 1 },
      { sampleCachedChannel 2 false with weight := some 2 },
      { sampleCachedChannel 3 false with priority := some 0 }]
  nodup := by decide

/-- The lists and rows of a table as `InitChannelCache` builds them. -/
def weightedCache : ChannelCache where
  group2model2channels := ChannelCache.newGroup2model2channels weightedChannelTable.rows
  channelsIDM := ChannelCache.newChannelId2channel weightedChannelTable.rows

/-- A number as a signed word. -/
def int64 (n : ℤ) : ℤ :=
  n.bmod (2 ^ 64)

/-- `weightSum`, an unsigned word. -/
def weightSum (abilities : List Ability) : ℕ :=
  abilities.foldl (fun sum ability => (sum + (ability.weight + 10)) % 2 ^ 64) 0

/-- The number of values that `GetRandomInt` can take. -/
def weightRange (abilities : List Ability) : ℕ :=
  (int64 (weightSum abilities)).toNat

/-- The loop of `GetChannel` on signed words: the place that it chooses. -/
def chosenPlace : ℤ → List Ability → Option ℕ
  | _, [] => none
  | weight, ability :: abilities =>
      let weight := int64 (weight - int64 (int64 ability.weight + 10))
      if weight ≤ 0 then some 0 else (chosenPlace weight abilities).map (· + 1)

/-- Every value makes the loop choose an ability, each of them exactly `weight + 10` values. -/
structure ChosenExactly (abilities : List Ability) : Prop where
  always : ∀ r < weightRange abilities, ∃ i, chosenPlace r abilities = some i
  share : ∀ i ability, abilities[i]? = some ability →
    ((Finset.range (weightRange abilities)).filter fun r : ℕ =>
      chosenPlace r abilities = some i).card = ability.weight + 10

section

variable {abilities : List Ability}

/-- What the weights add up to. -/
def weightTotal (abilities : List Ability) : ℕ :=
  weight (fun ability => ability.weight + 10) abilities

theorem int64_of_small {n : ℤ} (hlow : -(2 ^ 63) ≤ n) (hhigh : n < 2 ^ 63) : int64 n = n :=
  Int.bmod_eq_of_le (by omega) (by omega)

theorem weightSum_eq (abilities : List Ability) :
    weightSum abilities = weightTotal abilities % 2 ^ 64 := by
  have hfold : ∀ (abilities : List Ability) (sum : ℕ), sum < 2 ^ 64 →
      abilities.foldl (fun sum ability => (sum + (ability.weight + 10)) % 2 ^ 64) sum =
        (sum + weightTotal abilities) % 2 ^ 64 := by
    intro abilities
    induction abilities with
    | nil =>
        intro sum hsum
        exact (Nat.mod_eq_of_lt hsum).symm
    | cons ability abilities ih =>
        intro sum hsum
        rw [List.foldl_cons, ih _ (Nat.mod_lt _ (by norm_num)), Nat.mod_add_mod, weightTotal,
          weightTotal, weight_cons, Nat.add_assoc]
  have hall := hfold abilities 0 (by norm_num)
  rw [Nat.zero_add] at hall
  exact hall

theorem weightRange_lt (abilities : List Ability) : weightRange abilities < 2 ^ 63 := by
  have hlt : int64 (weightSum abilities) < (2 ^ 64 + 1) / 2 := Int.bmod_lt (by norm_num)
  unfold weightRange
  omega

/-- Below the sign bit nothing wraps. -/
theorem weightRange_eq (hsmall : weightTotal abilities < 2 ^ 63) :
    weightRange abilities = weightTotal abilities := by
  rw [weightRange, weightSum_eq, Nat.mod_eq_of_lt (by omega), int64_of_small (by omega) (by omega),
    Int.toNat_natCast]

/-- The loop is the walk of the memory cache from the number before. -/
theorem chosenPlace_eq (hsmall : weightTotal abilities < 2 ^ 63) {r : ℤ} (hlow : 0 ≤ r)
    (hhigh : r < 2 ^ 63) :
    chosenPlace r abilities =
      drawPlace (fun ability : Ability => ability.weight + 10) (r - 1) abilities := by
  induction abilities generalizing r with
  | nil => rfl
  | cons ability abilities ih =>
      rw [weightTotal, weight_cons] at hsmall
      rw [chosenPlace, drawPlace, int64_of_small (n := (ability.weight : ℤ)) (by omega) (by omega),
        int64_of_small (n := (ability.weight : ℤ) + 10) (by omega) (by omega),
        int64_of_small (by omega) (by omega)]
      push_cast
      by_cases hlast : r - ((ability.weight : ℤ) + 10) ≤ 0
      · rw [if_pos hlast, if_pos (by omega)]
      · rw [if_neg hlast, if_neg (by omega), ih (by unfold weightTotal; omega) (by omega)
          (by omega)]
        congr 2
        omega

/-- The shares need as many values as they add up to. -/
theorem weightTotal_le (hexact : ChosenExactly abilities) :
    weightTotal abilities ≤ weightRange abilities := by
  have hshares : weightTotal abilities = ∑ i : Fin abilities.length,
      ((Finset.range (weightRange abilities)).filter fun r : ℕ =>
        chosenPlace r abilities = some i.val).card := by
    unfold weightTotal weight
    rw [← Fin.sum_univ_fun_getElem]
    exact Finset.sum_congr rfl fun i _ =>
      (hexact.share i.val abilities[i] (List.getElem?_eq_getElem i.isLt)).symm
  have hdisjoint : Set.PairwiseDisjoint (Finset.univ : Finset (Fin abilities.length))
      fun i : Fin abilities.length => (Finset.range (weightRange abilities)).filter fun r : ℕ =>
        chosenPlace r abilities = some i.val := by
    intro i _ j _ hne
    refine Finset.disjoint_left.2 fun r hi hj => hne ?_
    have hsame := (Finset.mem_filter.1 hi).2.symm.trans (Finset.mem_filter.1 hj).2
    exact Fin.ext (Option.some.inj hsame)
  have hvalues : (Finset.univ.biUnion fun i : Fin abilities.length =>
      (Finset.range (weightRange abilities)).filter fun r : ℕ =>
        chosenPlace r abilities = some i.val).card ≤ (Finset.range (weightRange abilities)).card :=
    Finset.card_le_card (Finset.biUnion_subset.2 fun i _ => Finset.filter_subset _ _)
  rw [hshares, ← Finset.card_biUnion hdisjoint]
  rwa [Finset.card_range] at hvalues

/-- Of more than one ability the first is chosen by one value too many. -/
theorem not_chosenExactly {first second : Ability} {rest : List Ability}
    (habilities : abilities = first :: second :: rest) : ¬ ChosenExactly abilities := by
  intro hexact
  have htotal := weightTotal_le hexact
  have hrange := weightRange_lt abilities
  have hsmall : weightTotal abilities < 2 ^ 63 := by omega
  rw [weightRange_eq hsmall] at hrange
  have hmore : first.weight + 11 ≤ weightTotal abilities := by
    rw [habilities, weightTotal, weight_cons, weight_cons]
    omega
  have hshare := hexact.share 0 first (by rw [habilities]; rfl)
  rw [weightRange_eq hsmall] at hshare
  have hvalues : Finset.range (first.weight + 11) ⊆
      (Finset.range (weightTotal abilities)).filter fun r : ℕ =>
        chosenPlace r abilities = some 0 := by
    intro r hr
    rw [Finset.mem_range] at hr
    rw [Finset.mem_filter, Finset.mem_range, chosenPlace_eq hsmall (by omega) (by omega),
      habilities, drawPlace, if_pos (by omega)]
    exact ⟨by rw [← habilities]; omega, rfl⟩
  have hcard := Finset.card_le_card hvalues
  rw [Finset.card_range, hshare] at hcard
  omega

/-- The loop chooses each ability by exactly as many values as it weighs, with ten added, only where
there is nothing to choose: one ability, whose weight with ten added is a signed word. -/
theorem ability_choice_exact_iff (abilities : List Ability) (habilities : abilities ≠ []) :
    ChosenExactly abilities ↔
      ∃ ability, abilities = [ability] ∧ ability.weight + 10 < 2 ^ 63 := by
  have hone (ability : Ability) : weightTotal [ability] = ability.weight + 10 := by
    rw [weightTotal, weight_cons]
    rfl
  constructor
  · intro hexact
    cases abilities with
    | nil => exact absurd rfl habilities
    | cons first rest =>
        cases rest with
        | cons second rest => exact absurd hexact (not_chosenExactly rfl)
        | nil =>
            have htotal := weightTotal_le hexact
            have hrange := weightRange_lt [first]
            rw [hone] at htotal
            exact ⟨first, rfl, by omega⟩
  · intro hsingle
    obtain ⟨ability, rfl, hsmall⟩ := hsingle
    have htotal : weightTotal [ability] < 2 ^ 63 := by rw [hone]; exact hsmall
    have hrange : weightRange [ability] = ability.weight + 10 := by
      rw [weightRange_eq htotal, hone]
    have hchosen : ∀ r < ability.weight + 10, chosenPlace r [ability] = some 0 := by
      intro r hr
      rw [chosenPlace_eq htotal (by omega) (by omega), drawPlace, if_pos (by omega)]
    refine ⟨fun r hr => ⟨0, hchosen r (by omega)⟩, fun i other hother => ?_⟩
    cases i with
    | succ i => cases hother
    | zero =>
        obtain rfl := Option.some.inj hother
        rw [hrange, Finset.filter_true_of_mem fun r hr => hchosen r (Finset.mem_range.1 hr),
          Finset.card_range]

/-- Where nothing wraps, the selection from the tables picks the channel of the chosen place. -/
theorem pickAbility_chosen (hsmall : weightTotal abilities < 2 ^ 63) {r : ℤ} (hlow : 0 ≤ r)
    (hhigh : r < 2 ^ 63) :
    pickAbility r abilities = (((chosenPlace r abilities).bind fun i => abilities[i]?).map
      Ability.channelId).getD 0 := by
  induction abilities generalizing r with
  | nil => rfl
  | cons ability abilities ih =>
      have hrest : weightTotal abilities < 2 ^ 63 := by
        rw [weightTotal, weight_cons] at hsmall
        unfold weightTotal
        omega
      rw [chosenPlace_eq hsmall hlow hhigh, pickAbility, drawPlace]
      push_cast
      by_cases hlast : r - ((ability.weight : ℤ) + 10) ≤ 0
      · rw [if_pos hlast, if_pos (by omega)]
        rfl
      · rw [if_neg hlast, if_neg (by omega), ih hrest (by omega) (by omega),
          chosenPlace_eq hrest (by omega) (by omega)]
        have hnumber : r - 1 - ((ability.weight : ℤ) + 10) =
            r - ((ability.weight : ℤ) + 10) - 1 := by
          omega
        rw [hnumber]
        cases drawPlace (fun ability : Ability => ability.weight + 10)
          (r - ((ability.weight : ℤ) + 10) - 1) abilities with
        | none => rfl
        | some i => rfl

end

/-- Two abilities of the weight 3. -/
def evenAbilities : List Ability :=
  [(sampleCachedChannel 1 false).ability "default" "o3",
    (sampleCachedChannel 2 false).ability "default" "o3"]

theorem ability_choice_exact_single : ChosenExactly (evenAbilities.take 1) :=
  (ability_choice_exact_iff (evenAbilities.take 1) (by decide)).2 ⟨_, rfl, by decide⟩

/-- The first is chosen by 14 of the 26 values. -/
theorem first_ability_preferred :
    ¬ ∀ abilities : List Ability, abilities ≠ [] → ChosenExactly abilities := by
  intro hclaim
  have hshare := (hclaim evenAbilities (by decide)).share 0 _ rfl
  exact absurd hshare (by decide +kernel)

end NewApi.Model
