import NewApi.Lib.AddressBlocks
import NewApi.Lib.Strings

/-!
# Addresses of the net package

A `net.IP` is a slice of four or of sixteen bytes; an IPv4 address can have both forms. Networks
compare bytes under a mask, and the text of an IPv6 address compresses its longest run of zeros.
-/

namespace NewApi.Model

open NewApi.Lib NewApi.Lib.Strings

abbrev IP := List UInt8

namespace IP

/-! ## Bytes -/

def v4InV6Prefix : IP :=
  [0, 0, 0, 0, 0, 0, 0, 0, 0, 0, 0xff, 0xff]

def ipv6Loopback : IP :=
  [0, 0, 0, 0, 0, 0, 0, 0, 0, 0, 0, 0, 0, 0, 0, 1]

/-- `net.IPv4`. -/
def ipv4 (a b c d : UInt8) : IP :=
  v4InV6Prefix ++ [a, b, c, d]

def to4 (ip : IP) : Option IP :=
  if ip.length = 4 then some ip
  else if ip.length = 16 ∧ ip.take 12 = v4InV6Prefix then some (ip.drop 12)
  else none

/-- The byte at an index that is within the length. -/
def byte (ip : IP) (i : ℕ) : UInt8 :=
  ip.getD i 0

def equal (ip x : IP) : Bool :=
  if ip.length = x.length then ip = x
  else if ip.length = 4 ∧ x.length = 16 then x.take 12 = v4InV6Prefix ∧ ip = x.drop 12
  else if ip.length = 16 ∧ x.length = 4 then ip.take 12 = v4InV6Prefix ∧ ip.drop 12 = x
  else false

def isLoopback (ip : IP) : Bool :=
  match ip.to4 with
  | some ip4 => ip4.byte 0 = 127
  | none => ip.equal ipv6Loopback

def isLinkLocalMulticast (ip : IP) : Bool :=
  match ip.to4 with
  | some ip4 => ip4.byte 0 = 224 ∧ ip4.byte 1 = 0 ∧ ip4.byte 2 = 0
  | none => ip.length = 16 ∧ ip.byte 0 = 0xff ∧ ip.byte 1 &&& 0x0f = 0x02

def isLinkLocalUnicast (ip : IP) : Bool :=
  match ip.to4 with
  | some ip4 => ip4.byte 0 = 169 ∧ ip4.byte 1 = 254
  | none => ip.length = 16 ∧ ip.byte 0 = 0xfe ∧ ip.byte 1 &&& 0xc0 = 0x80

/-! ## Networks -/

/-- `net.CIDRMask`. -/
def cidrMask (ones bits : ℕ) : List UInt8 :=
  if (bits = 32 ∨ bits = 128) ∧ ones ≤ bits then blockMask ones (bits / 8) else []

end IP

structure IPNet where
  ip : IP
  mask : List UInt8
deriving DecidableEq

namespace IPNet

def networkNumberAndMask (n : IPNet) : IP × List UInt8 :=
  match n.ip.to4, n.mask.length with
  | some ip, 4 => (ip, n.mask)
  | some ip, 16 => (ip, n.mask.drop 12)
  | some _, _ => ([], [])
  | none, 16 => if n.ip.length = 16 then (n.ip, n.mask) else ([], [])
  | none, _ => ([], [])

def contains (n : IPNet) (ip : IP) : Bool :=
  let (nn, m) := n.networkNumberAndMask
  let x := ip.to4.getD ip
  x.length = nn.length ∧ masked m nn = masked m x

end IPNet

namespace IP

/-! ## Texts -/

/-- The 16-bit groups of an IPv6 address. -/
def groups (ip : IP) : List ℕ :=
  (List.range 8).map fun i => (ip.byte (2 * i)).toNat * 256 + (ip.byte (2 * i + 1)).toNat

/-- The groups that are zero, from one on. -/
def zerosFrom (groups : List ℕ) (i : ℕ) : ℕ :=
  ((groups.drop i).takeWhile (· = 0)).length

/-- The first of the longest runs of at least two zeros; without one the start is past all groups.
-/
def zeroRun (groups : List ℕ) : ℕ × ℕ :=
  (List.range 8).foldl (fun zero i =>
    let l := zerosFrom groups i
    -- of two runs of one length the first is kept
    if 2 ≤ l ∧ zero.2 - zero.1 < l then (i, i + l) else zero) (255, 255)

def hex (group : ℕ) : String :=
  String.ofList (Nat.toDigits 16 group)

def string6 (ip : IP) : String :=
  let groups := ip.groups
  let (zeroStart, zeroEnd) := zeroRun groups
  if zeroStart < 8 then
    join ':' ((groups.take zeroStart).map hex) ++ "::" ++ join ':' ((groups.drop zeroEnd).map hex)
  else join ':' (groups.map hex)

/-- `ip.String()`. -/
def string (ip : IP) : String :=
  if ip.length = 0 then "<nil>"
  else if ip.length ≠ 4 ∧ ip.length ≠ 16 then
    "?" ++ String.ofList (ip.flatMap fun b =>
      [Nat.digitChar (b.toNat / 16), Nat.digitChar (b.toNat % 16)])
  else
    match ip.to4 with
    | some ip4 => join '.' (ip4.map fun b => b.toNat.repr)
    | none => ip.string6

/-! ## Forms of an address -/

/-- An IPv4 address has four bytes, whatever form it comes in. -/
def unmapped (ip : IP) : IP :=
  ip.to4.getD ip

section

variable {ip : IP}

/-- A value is an address of four bytes, mapped or not, or one of sixteen that is not mapped. -/
theorem address_cases (hip : ip.length = 4 ∨ ip.length = 16) :
    (∃ a b c d, ip.to4 = some [a, b, c, d]) ∨
      ip.to4 = none ∧ ip.length = 16 ∧ ∃ a b rest, ip = a :: b :: rest ∧ rest.length = 14 := by
  rw [to4]
  split
  case isTrue hlength =>
    obtain ⟨a, b, c, d, rfl⟩ := List.length_eq_four.1 hlength
    exact .inl ⟨a, b, c, d, rfl⟩
  case isFalse hlength =>
    have hlong : ip.length = 16 := hip.resolve_left hlength
    split
    case isTrue =>
      have hdrop : (ip.drop 12).length = 4 := by rw [List.length_drop, hlong]
      obtain ⟨a, b, c, d, hbytes⟩ := List.length_eq_four.1 hdrop
      exact .inl ⟨a, b, c, d, by rw [hbytes]⟩
    case isFalse =>
      obtain ⟨a, ip, rfl⟩ := List.exists_cons_of_length_eq_add_one hlong
      obtain ⟨b, rest, rfl⟩ := List.exists_cons_of_length_eq_add_one (Nat.succ.inj hlong)
      exact .inr ⟨rfl, hlong, a, b, rest, rfl, by simpa using hlong⟩

theorem unmapped_of_to4 {ip4 : IP} (hip : ip.to4 = some ip4) : ip.unmapped = ip4 := by
  rw [unmapped, hip, Option.getD_some]

theorem unmapped_of_none (hip : ip.to4 = none) : ip.unmapped = ip := by
  rw [unmapped, hip, Option.getD_none]

/-- An address is in no block of the other length. -/
theorem not_mem_of_length {block : Block} (hlength : ip.length ≠ block.base.length) :
    ¬ block.Mem ip :=
  fun hmem => hlength hmem.1

theorem equal_loopback_iff (hlength : ip.length = 16) :
    ip.equal ipv6Loopback = true ↔ (Block.mk ipv6Loopback 128).Mem ip := by
  have hsame : ip.length = ipv6Loopback.length := hlength
  rw [equal, if_pos hsame, decide_eq_true_eq]
  exact Block.mem_full.symm

theorem isLoopback_iff (hip : ip.length = 4 ∨ ip.length = 16) :
    ip.isLoopback = true ↔ (Block.mk [127, 0, 0, 0] 8).Mem ip.unmapped ∨
      (Block.mk ipv6Loopback 128).Mem ip.unmapped := by
  obtain ⟨a, b, c, d, hto4⟩ | ⟨hnone, hlength, -⟩ := address_cases hip
  · rw [isLoopback, hto4, unmapped_of_to4 hto4, Block.mem_cons_of_le (by omega)]
    simp [Block.mem_zero, byte, not_mem_of_length, ipv6Loopback]
  · have hfour : ¬ (Block.mk [127, 0, 0, 0] 8).Mem ip := not_mem_of_length (by simp [hlength])
    rw [isLoopback, hnone, unmapped_of_none hnone, or_iff_right hfour]
    exact equal_loopback_iff hlength

theorem isLinkLocalUnicast_iff (hip : ip.length = 4 ∨ ip.length = 16) :
    ip.isLinkLocalUnicast = true ↔ (Block.mk [169, 254, 0, 0] 16).Mem ip.unmapped ∨
      (Block.mk (0xfe :: 0x80 :: List.replicate 14 0) 10).Mem ip.unmapped := by
  obtain ⟨a, b, c, d, hto4⟩ | ⟨hnone, hlength, a, b, rest, rfl, hrest⟩ := address_cases hip
  · rw [isLinkLocalUnicast, hto4, unmapped_of_to4 hto4, Block.mem_cons_of_le (by omega),
      Block.mem_cons_of_le (by omega)]
    simp [Block.mem_zero, byte, not_mem_of_length]
  · have hfour : ¬ (Block.mk [169, 254, 0, 0] 16).Mem (a :: b :: rest) :=
      not_mem_of_length (by simp [hlength])
    have hbits : b &&& 0xc0 = 0x80 ↔ b.toNat / 64 = 2 :=
      and_leadingMask_eq_iff (n := 2) (x := 0x80) (by omega)
    rw [isLinkLocalUnicast, hnone, unmapped_of_none hnone, or_iff_right hfour,
      Block.mem_cons_of_le (by omega), Block.mem_cons_of_lt (by omega)]
    simp [byte, hrest, hbits]

theorem isLinkLocalMulticast_iff (hip : ip.length = 4 ∨ ip.length = 16) :
    ip.isLinkLocalMulticast = true ↔ (Block.mk [224, 0, 0, 0] 24).Mem ip.unmapped ∨
      (Block.mk (0xff :: List.replicate 15 0) 8).Mem ip.unmapped ∧
        ip.unmapped.byte 1 &&& 0x0f = 0x02 := by
  obtain ⟨a, b, c, d, hto4⟩ | ⟨hnone, hlength, a, b, rest, rfl, hrest⟩ := address_cases hip
  · rw [isLinkLocalMulticast, hto4, unmapped_of_to4 hto4, Block.mem_cons_of_le (by omega),
      Block.mem_cons_of_le (by omega), Block.mem_cons_of_le (by omega)]
    simp [Block.mem_zero, byte, not_mem_of_length]
  · have hfour : ¬ (Block.mk [224, 0, 0, 0] 24).Mem (a :: b :: rest) :=
      not_mem_of_length (by simp [hlength])
    rw [isLinkLocalMulticast, hnone, unmapped_of_none hnone, or_iff_right hfour,
      Block.mem_cons_of_le (by omega)]
    simp [byte, hrest, Block.mem_zero]

/-- Membership in an IPv4 network is membership in its block. -/
theorem contains_ipv4_iff (a b c d : UInt8) {n : ℕ} (hn : n ≤ 32) :
    (IPNet.mk (ipv4 a b c d) (cidrMask n 32)).contains ip = true ↔
      (Block.mk [a, b, c, d] n).Mem ip.unmapped := by
  have hmask : cidrMask n 32 = blockMask n 4 := if_pos ⟨.inl rfl, hn⟩
  have hnumber : (IPNet.mk (ipv4 a b c d) (cidrMask n 32)).networkNumberAndMask =
      ([a, b, c, d], blockMask n 4) := by
    simp [IPNet.networkNumberAndMask, hmask, ipv4, to4, v4InV6Prefix]
  rw [IPNet.contains, hnumber]
  refine decide_eq_true_iff.trans ?_
  show ip.unmapped.length = 4 ∧
    masked (blockMask n 4) [a, b, c, d] = masked (blockMask n 4) ip.unmapped ↔ _
  constructor
  · rintro ⟨hlength, hsame⟩
    refine (Block.mem_iff_masked hlength).2 ?_
    rw [hlength]
    exact hsame.symm
  · intro hmem
    have hlength : ip.unmapped.length = 4 := hmem.1
    have hsame := (Block.mem_iff_masked hmem.1).1 hmem
    rw [hlength] at hsame
    exact ⟨hlength, hsame.symm⟩

/-! ## The beginning of a text -/

theorem zerosFrom_zero {groups : List ℕ} (hzeros : 2 ≤ zerosFrom groups 0) :
    groups.head? = some 0 := by
  cases groups with
  | nil => simp [zerosFrom] at hzeros
  | cons group groups =>
      by_cases hgroup : group = 0
      · rw [hgroup, List.head?_cons]
      · simp [zerosFrom, hgroup] at hzeros

/-- A run of zeros that starts at once is one of the first group. -/
theorem zeroRun_start (groups : List ℕ) (hstart : (zeroRun groups).1 = 0) :
    groups.head? = some 0 := by
  have hall : ∀ (indices : List ℕ) (zero : ℕ × ℕ), (zero.1 = 0 → groups.head? = some 0) →
      (indices.foldl (fun zero i =>
        if 2 ≤ zerosFrom groups i ∧ zero.2 - zero.1 < zerosFrom groups i then
          (i, i + zerosFrom groups i) else zero) zero).1 = 0 → groups.head? = some 0 := by
    intro indices
    induction indices with
    | nil => exact fun zero hzero => hzero
    | cons i indices ih =>
        intro zero hzero
        rw [List.foldl_cons]
        refine ih _ fun hfirst => ?_
        split at hfirst
        case isTrue hlonger =>
          obtain rfl : i = 0 := hfirst
          exact zerosFrom_zero hlonger.1
        case isFalse => exact hzero hfirst
  exact hall (List.range 8) (255, 255) (by omega) hstart

/-- The first group is written before a colon, or it is zero and not written. -/
theorem toList_string6 {group next : ℕ} {groups : List ℕ}
    (hip : ip.groups = group :: next :: groups) :
    ∃ rest, group = 0 ∧ ip.string6.toList = ':' :: rest ∨
      ip.string6.toList = Nat.toDigits 16 group ++ ':' :: rest := by
  have hgroup : ∀ first rest, (∃ more, (join ':' (hex group :: first) ++ String.singleton ':' ++
      rest).toList = Nat.toDigits 16 group ++ ':' :: more) := fun first rest => by
    obtain ⟨more, hmore⟩ := exists_toList_join_append ':' (hex group) first rest
    exact ⟨more, by rw [hmore, hex, String.toList_ofList]⟩
  rw [string6, hip]
  cases hrun : zeroRun (group :: next :: groups) with
  | mk zeroStart zeroEnd =>
      dsimp only
      split
      case isTrue hstart =>
        cases zeroStart with
        | zero =>
            -- the run starts the text, with the first of its two colons
            obtain rfl : group = 0 := by
              simpa using zeroRun_start (group :: next :: groups) (by rw [hrun])
            exact ⟨_, .inl ⟨rfl, by simp [join]; rfl⟩⟩
        | succ zeroStart =>
            obtain ⟨more, hmore⟩ := hgroup (((next :: groups).take zeroStart).map hex)
              (":" ++ join ':' (((group :: next :: groups).drop zeroEnd).map hex))
            have hcolons : "::" = String.singleton ':' ++ ":" := rfl
            refine ⟨more, .inr ?_⟩
            rw [← hmore, hcolons, List.take_succ_cons, List.map_cons]
            simp only [String.append_assoc]
      case isFalse =>
        obtain ⟨more, hmore⟩ := hgroup [] (join ':' ((next :: groups).map hex))
        exact ⟨more, .inr hmore⟩

/-- Hexadecimal digits of a group. -/
theorem toDigits_group {group : ℕ} (hgroup : group < 2 ^ 16) :
    Nat.toDigits 16 group =
      if group < 16 then [Nat.digitChar group]
      else if group < 256 then [Nat.digitChar (group / 16), Nat.digitChar (group % 16)]
      else if group < 4096 then
        [Nat.digitChar (group / 256), Nat.digitChar (group / 16 % 16), Nat.digitChar (group % 16)]
      else
        [Nat.digitChar (group / 4096), Nat.digitChar (group / 256 % 16),
          Nat.digitChar (group / 16 % 16), Nat.digitChar (group % 16)] := by
  by_cases hone : group < 16
  · rw [if_pos hone, Nat.toDigits_of_lt_base hone]
  rw [if_neg hone, Nat.toDigits_of_base_le (by omega) (by omega)]
  by_cases htwo : group < 256
  · rw [if_pos htwo, Nat.toDigits_of_lt_base (by omega)]
    rfl
  rw [if_neg htwo, Nat.toDigits_of_base_le (by omega) (by omega), Nat.div_div_eq_div_mul]
  by_cases hthree : group < 4096
  · rw [if_pos hthree, Nat.toDigits_of_lt_base (by omega)]
    rfl
  rw [if_neg hthree, Nat.toDigits_of_base_le (by omega) (by omega), Nat.div_div_eq_div_mul,
    Nat.toDigits_of_lt_base (by omega)]
  rfl

/-- The textual test of a link-local address compares its first group. -/
theorem hasPrefix_fe80_iff {group : ℕ} {text : String} {rest : List Char} (hgroup : group < 2 ^ 16)
    (htext : text.toList = Nat.toDigits 16 group ++ ':' :: rest) :
    hasPrefix text "fe80:" = true ↔ group = 0xfe80 := by
  rw [hasPrefix, htext, toDigits_group hgroup, List.isPrefixOf_iff_prefix]
  show ['f', 'e', '8', '0', ':'] <+: _ ↔ _
  -- one case for each number of digits: only with four of them is the colon in its place
  split
  case isTrue => simp; omega
  case isFalse =>
    split
    case isTrue => simp; omega
    case isFalse =>
      split
      case isTrue => simp; omega
      case isFalse => simp; omega

/-- The textual test of a unique local address asks for the first two digits of the first group. -/
theorem hasPrefix_fc_iff {group : ℕ} {text : String} {rest : List Char} (hgroup : group < 2 ^ 16)
    (htext : text.toList = Nat.toDigits 16 group ++ ':' :: rest) :
    (hasPrefix text "fc" || hasPrefix text "fd") = true ↔
      group / 512 = 126 ∨ group / 32 = 126 ∨ group / 2 = 126 := by
  rw [Bool.or_eq_true, hasPrefix, hasPrefix, htext, toDigits_group hgroup,
    List.isPrefixOf_iff_prefix, List.isPrefixOf_iff_prefix]
  show ['f', 'c'] <+: _ ∨ ['f', 'd'] <+: _ ↔ _
  -- leading zeros are not written: groups of two, three and four digits can begin so
  split
  case isTrue => simp; omega
  case isFalse =>
    split
    case isTrue => simp; omega
    case isFalse =>
      split
      case isTrue => simp; omega
      case isFalse => simp; omega

theorem hasPrefix_of_head {text : String} (start : String) {c d : Char} {cs ds : List Char}
    (htext : text.toList = c :: cs) (hstart : start.toList = d :: ds) (hne : d ≠ c) :
    hasPrefix text start = false := by
  rw [hasPrefix, htext, hstart, Bool.eq_false_iff, Ne, List.isPrefixOf_iff_prefix,
    List.cons_prefix_cons]
  exact fun hsame => hne hsame.1

theorem groups_cons (a b : UInt8) (rest : List UInt8) :
    ∃ next groups, IP.groups (a :: b :: rest) = (a.toNat * 256 + b.toNat) :: next :: groups :=
  ⟨_, _, rfl⟩

/-- For an address that is not mapped, the two textual tests ask for blocks, of which one is not
that of the unique local addresses. -/
theorem textual_tests {a b : UInt8} {rest : List UInt8} (hrest : rest.length = 14)
    (hnone : to4 (a :: b :: rest) = none) :
    (hasPrefix (string (a :: b :: rest)) "fe80:" = true ↔
        (Block.mk (0xfe :: 0x80 :: List.replicate 14 0) 16).Mem (a :: b :: rest)) ∧
      ((hasPrefix (string (a :: b :: rest)) "fc" ||
          hasPrefix (string (a :: b :: rest)) "fd") = true ↔
        (Block.mk (0xfc :: List.replicate 15 0) 7).Mem (a :: b :: rest) ∨
          (Block.mk (0x0f :: 0xc0 :: List.replicate 14 0) 11).Mem (a :: b :: rest) ∨
            (Block.mk (0x00 :: 0xfc :: List.replicate 14 0) 15).Mem (a :: b :: rest)) := by
  have ha := a.toNat_lt
  have hb := b.toNat_lt
  have hlength : (a :: b :: rest).length = 16 := by simp [hrest]
  have hstring : string (a :: b :: rest) = string6 (a :: b :: rest) := by
    rw [string, if_neg (by omega), if_neg (by omega), hnone]
  have hfe : (Block.mk (0xfe :: 0x80 :: List.replicate 14 0) 16).Mem (a :: b :: rest) ↔
      a.toNat = 0xfe ∧ b.toNat = 0x80 := by
    rw [Block.mem_cons_of_le (by omega), Block.mem_cons_of_le (by omega), ← UInt8.toNat_inj,
      ← UInt8.toNat_inj]
    simp [Block.mem_zero, hrest]
  have hfc : (Block.mk (0xfc :: List.replicate 15 0) 7).Mem (a :: b :: rest) ↔
      a.toNat / 2 = 126 := by
    rw [Block.mem_cons_of_lt (by omega)]
    simp [hrest]
  have h0f : (Block.mk (0x0f :: 0xc0 :: List.replicate 14 0) 11).Mem (a :: b :: rest) ↔
      a.toNat = 0x0f ∧ b.toNat / 32 = 6 := by
    rw [Block.mem_cons_of_le (by omega), Block.mem_cons_of_lt (by omega), ← UInt8.toNat_inj]
    simp [hrest]
  have h00 : (Block.mk (0x00 :: 0xfc :: List.replicate 14 0) 15).Mem (a :: b :: rest) ↔
      a.toNat = 0 ∧ b.toNat / 2 = 126 := by
    rw [Block.mem_cons_of_le (by omega), Block.mem_cons_of_lt (by omega), ← UInt8.toNat_inj]
    simp [hrest]
  rw [hfe, hfc, h0f, h00, hstring]
  obtain ⟨next, groups, hgroups⟩ := groups_cons a b rest
  obtain ⟨text, ⟨hzero, htext⟩ | htext⟩ := toList_string6 hgroups
  · rw [hasPrefix_of_head "fe80:" htext rfl (by decide),
      hasPrefix_of_head "fc" htext rfl (by decide),
      hasPrefix_of_head "fd" htext rfl (by decide)]
    simp only [Bool.false_eq_true, Bool.or_self, false_iff]
    omega
  · rw [hasPrefix_fe80_iff (by omega) htext, hasPrefix_fc_iff (by omega) htext]
    omega

end

end IP

end NewApi.Model
