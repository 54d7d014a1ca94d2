import NewApi.Lib.Integers
import NewApi.Model.IPAddress

/-!
# The filter of fetched addresses

`ValidateURL` lets a URL be fetched whose address is not private, unless private addresses are
allowed, and passes a white or a black list. `isPrivateIP` asks the predicates of the net package,
networks of IPv4 and the text of an IPv6 address.
-/

namespace NewApi.Model

open NewApi.Lib NewApi.Lib.Strings

/-- The parts of a parsed URL that are read. -/
structure FetchURL where
  scheme : String
  host : String
  hostname : String
deriving DecidableEq

/-- What the net packages answer about texts. -/
structure NetPackage where
  parse : String → Except String FetchURL
  splitHostPort : String → Option (String × String)
  parseIP : String → Option IP
  parseCIDR : String → Option IPNet
  lookupIP : String → Except String (List IP)

/-- The host and the port, which has a default. -/
def FetchURL.hostPort (net : NetPackage) (u : FetchURL) : String × String :=
  (net.splitHostPort u.host).getD (u.hostname, if u.scheme = "https" then "443" else "80")

structure SSRFProtection where
  allowPrivateIp : Bool
  domainFilterMode : Bool
  domainList : List String
  ipFilterMode : Bool
  ipList : List String
  allowedPorts : List ℤ
  applyIPFilterForDomain : Bool
deriving DecidableEq

namespace Ssrf

/-! ## Private addresses -/

def privateNets : List IPNet :=
  [⟨IP.ipv4 10 0 0 0, IP.cidrMask 8 32⟩, ⟨IP.ipv4 172 16 0 0, IP.cidrMask 12 32⟩,
    ⟨IP.ipv4 192 168 0 0, IP.cidrMask 16 32⟩, ⟨IP.ipv4 127 0 0 0, IP.cidrMask 8 32⟩,
    ⟨IP.ipv4 169 254 0 0, IP.cidrMask 16 32⟩, ⟨IP.ipv4 224 0 0 0, IP.cidrMask 4 32⟩,
    ⟨IP.ipv4 240 0 0 0, IP.cidrMask 4 32⟩]

def isPrivateIP (ip : IP) : Bool :=
  if ip.isLoopback || ip.isLinkLocalUnicast || ip.isLinkLocalMulticast then true
  else if privateNets.any (·.contains ip) then true
  else if ip.to4 = none then
    if ip.equal IP.ipv6Loopback then true
    else if hasPrefix ip.string "fe80:" then true
    else hasPrefix ip.string "fc" || hasPrefix ip.string "fd"
  else false

/-! ## Lists -/

def isIpInCIDRList (net : NetPackage) (ip : IP) (cidrList : List String) : Bool :=
  cidrList.any fun cidr =>
    match net.parseCIDR cidr with
    | none =>
        match net.parseIP cidr with
        | some whitelistIP => ip.equal whitelistIP
        | none => false
    | some network => network.contains ip

def isIPListed (net : NetPackage) (ip : IP) (list : List String) : Bool :=
  if list.length = 0 then false else isIpInCIDRList net ip list

def isDomainListed (domain : String) (list : List String) : Bool :=
  if list.length = 0 then false
  else
    list.any fun entry =>
      let item := toLower (trimSpace entry)
      let domain := toLower domain
      if item = "" then false
      else if domain = item then true
      else if hasPrefix item "*." then
        let suffix := String.ofList (item.toList.drop 2)
        hasSuffix domain ("." ++ suffix) || domain = suffix
      else false

end Ssrf

namespace SSRFProtection

def isIPAccessAllowed (net : NetPackage) (p : SSRFProtection) (ip : IP) : Bool :=
  if Ssrf.isPrivateIP ip && !p.allowPrivateIp then false
  else
    let listed := Ssrf.isIPListed net ip p.ipList
    if p.ipFilterMode then listed else !listed

def isAllowedPort (p : SSRFProtection) (port : ℤ) : Bool :=
  p.allowedPorts.length = 0 || p.allowedPorts.contains port

def isDomainAllowed (p : SSRFProtection) (domain : String) : Bool :=
  let listed := Ssrf.isDomainListed domain p.domainList
  if p.domainFilterMode then listed else !listed

/-- The error for an address that is in the URL. -/
def ipError (p : SSRFProtection) (ip : IP) : String :=
  if Ssrf.isPrivateIP ip then "private IP address not allowed: " ++ ip.string
  else if p.ipFilterMode then "ip not in whitelist: " ++ ip.string
  else "ip in blacklist: " ++ ip.string

/-- The error for an address that the name of the URL resolves to. -/
def resolvedError (p : SSRFProtection) (host : String) (ip : IP) : String :=
  if Ssrf.isPrivateIP ip && !p.allowPrivateIp then
    "private IP address not allowed: " ++ host ++ " resolves to " ++ ip.string
  else if p.ipFilterMode then "ip not in whitelist: " ++ host ++ " resolves to " ++ ip.string
  else "ip in blacklist: " ++ host ++ " resolves to " ++ ip.string

/-- The checks of a host that is a name. -/
def validateName (net : NetPackage) (p : SSRFProtection) (host : String) : Except String Unit :=
  if !p.isDomainAllowed host then
    if p.domainFilterMode then .error ("domain not in whitelist: " ++ host)
    else .error ("domain in blacklist: " ++ host)
  else if !p.applyIPFilterForDomain then .ok ()
  else
    match net.lookupIP host with
    | .error err => .error ("DNS resolution failed for " ++ host ++ ": " ++ err)
    | .ok ips =>
        match ips.find? fun ip => !p.isIPAccessAllowed net ip with
        | some ip => .error (p.resolvedError host ip)
        | none => .ok ()

def validateURL (net : NetPackage) (p : SSRFProtection) (urlStr : String) : Except String Unit :=
  match net.parse urlStr with
  | .error err => .error ("invalid URL format: " ++ err)
  | .ok u =>
      if u.scheme ≠ "http" ∧ u.scheme ≠ "https" then
        .error ("unsupported protocol: " ++ u.scheme ++ " (only http/https allowed)")
      else
        match atoi (u.hostPort net).2 with
        | none => .error ("invalid port: " ++ (u.hostPort net).2)
        | some port =>
            if !p.isAllowedPort port then .error ("port " ++ itoa port ++ " is not allowed")
            else
              match net.parseIP (u.hostPort net).1 with
              | some ip => if !p.isIPAccessAllowed net ip then .error (p.ipError ip) else .ok ()
              | none => p.validateName net (u.hostPort net).1

end SSRFProtection

namespace Ssrf

/-! ## Ranges -/

/-- The ranges of `privateNets`. -/
def privateBlocks : List Block :=
  [⟨[10, 0, 0, 0], 8⟩, ⟨[172, 16, 0, 0], 12⟩, ⟨[192, 168, 0, 0], 16⟩, ⟨[127, 0, 0, 0], 8⟩,
    ⟨[169, 254, 0, 0], 16⟩, ⟨[224, 0, 0, 0], 4⟩, ⟨[240, 0, 0, 0], 4⟩]

def loopback6 : Block :=
  ⟨IP.ipv6Loopback, 128⟩

def linkLocal6 : Block :=
  ⟨0xfe :: 0x80 :: List.replicate 14 0, 10⟩

def uniqueLocal6 : Block :=
  ⟨0xfc :: List.replicate 15 0, 7⟩

def unspecified4 : Block :=
  ⟨[0, 0, 0, 0], 32⟩

def unspecified6 : Block :=
  ⟨List.replicate 16 0, 128⟩

def multicast6 : Block :=
  ⟨0xff :: List.replicate 15 0, 8⟩

/-- The loopback, unspecified, private, unique local, link-local, multicast and reserved ranges. -/
def internalBlocks : List Block :=
  privateBlocks ++ [loopback6, linkLocal6, uniqueLocal6, unspecified4, unspecified6, multicast6]

/-- A range that `isPrivateIP` lists, with what it asks for it. -/
structure ListedRange where
  asks : IP → Bool
  block : Block

/-- For link-local addresses the predicate of the net package is asked as well as the text. -/
def listedRanges : List ListedRange :=
  List.zipWith (fun net block => ⟨net.contains, block⟩) privateNets privateBlocks ++
    [⟨fun ip => ip.to4 = none && ip.equal IP.ipv6Loopback, loopback6⟩,
      ⟨fun ip => ip.to4 = none && (ip.isLinkLocalUnicast || hasPrefix ip.string "fe80:"),
        linkLocal6⟩,
      ⟨fun ip => ip.to4 = none && (hasPrefix ip.string "fc" || hasPrefix ip.string "fd"),
        uniqueLocal6⟩]

/-- An internal address is rejected, and each listed range is asked for as the block that it is. -/
structure Complete (net : NetPackage) (p : SSRFProtection) (ip : IP) : Prop where
  rejects : (∃ block ∈ internalBlocks, block.Mem ip.unmapped) → p.isIPAccessAllowed net ip = false
  ranges : ∀ range ∈ listedRanges, range.asks ip = true ↔ range.block.Mem ip.unmapped

/-- The internal addresses that `isPrivateIP` does not ask for: unspecified ones and those of IPv6
multicast beyond the link. -/
def Missed (ip : IP) : Prop :=
  unspecified4.Mem ip.unmapped ∨ unspecified6.Mem ip.unmapped ∨
    multicast6.Mem ip.unmapped ∧ ip.unmapped.byte 1 &&& 0x0f ≠ 0x02

/-- The addresses `fc::/15` and `fc0::/11`, whose texts begin as those of unique local addresses. -/
def Mistaken (ip : IP) : Prop :=
  (Block.mk (0x0f :: 0xc0 :: List.replicate 14 0) 11).Mem ip.unmapped ∨
    (Block.mk (0x00 :: 0xfc :: List.replicate 14 0) 15).Mem ip.unmapped

/-- The white or the black list keeps the address out. -/
def ListRejects (net : NetPackage) (p : SSRFProtection) (ip : IP) : Prop :=
  isIPListed net ip p.ipList ≠ p.ipFilterMode

instance (ip : IP) : Decidable (Missed ip) :=
  inferInstanceAs (Decidable (_ ∨ _ ∨ _ ∧ _ ≠ _))

instance (ip : IP) : Decidable (Mistaken ip) :=
  inferInstanceAs (Decidable (_ ∨ _))

instance (net : NetPackage) (p : SSRFProtection) (ip : IP) : Decidable (ListRejects net p ip) :=
  inferInstanceAs (Decidable (_ ≠ _))

section

variable {ip : IP}

theorem loopback6_asks_iff (hip : ip.length = 4 ∨ ip.length = 16) :
    (ip.to4 = none && ip.equal IP.ipv6Loopback) = true ↔ loopback6.Mem ip.unmapped := by
  obtain ⟨a, b, c, d, hto4⟩ | ⟨hnone, hlength, -⟩ := IP.address_cases hip
  · rw [IP.unmapped_of_to4 hto4]
    simp [hto4, IP.not_mem_of_length, loopback6, IP.ipv6Loopback]
  · rw [IP.unmapped_of_none hnone, loopback6, ← IP.equal_loopback_iff hlength]
    simp [hnone]

theorem linkLocal6_asks_iff (hip : ip.length = 4 ∨ ip.length = 16) :
    (ip.to4 = none && (ip.isLinkLocalUnicast || hasPrefix ip.string "fe80:")) = true ↔
      linkLocal6.Mem ip.unmapped := by
  obtain ⟨a, b, c, d, hto4⟩ | ⟨hnone, hlength, a, b, rest, rfl, hrest⟩ := IP.address_cases hip
  · rw [IP.unmapped_of_to4 hto4]
    simp [hto4, IP.not_mem_of_length, linkLocal6]
  · have hfour : ¬ (Block.mk [169, 254, 0, 0] 16).Mem (a :: b :: rest) :=
      IP.not_mem_of_length (by simp [hlength])
    have hunicast := IP.isLinkLocalUnicast_iff hip
    rw [IP.unmapped_of_none hnone, or_iff_right hfour] at hunicast
    rw [IP.unmapped_of_none hnone, decide_eq_true hnone, Bool.true_and, Bool.or_eq_true, hunicast,
      (IP.textual_tests hrest hnone).1]
    exact or_iff_left_of_imp (Block.Mem.of_le (by omega))

theorem uniqueLocal6_asks_iff (hip : ip.length = 4 ∨ ip.length = 16) :
    (ip.to4 = none && (hasPrefix ip.string "fc" || hasPrefix ip.string "fd")) = true ↔
      uniqueLocal6.Mem ip.unmapped ∨ Mistaken ip := by
  obtain ⟨a, b, c, d, hto4⟩ | ⟨hnone, hlength, a, b, rest, rfl, hrest⟩ := IP.address_cases hip
  · rw [Mistaken, IP.unmapped_of_to4 hto4]
    simp [hto4, IP.not_mem_of_length, uniqueLocal6]
  · rw [Mistaken, IP.unmapped_of_none hnone, decide_eq_true hnone, Bool.true_and,
      (IP.textual_tests hrest hnone).2]
    rfl

theorem privateNets_iff : privateNets.any (·.contains ip) = true ↔
    ∃ block ∈ privateBlocks, block.Mem ip.unmapped := by
  simp [privateNets, privateBlocks, IP.contains_ipv4_iff]

/-- What `isPrivateIP` finds: the ranges that it lists, IPv6 multicast on the link and the mistaken
texts. -/
theorem isPrivateIP_iff (hip : ip.length = 4 ∨ ip.length = 16) :
    isPrivateIP ip = true ↔
      (∃ block ∈ privateBlocks ++ [loopback6, linkLocal6, uniqueLocal6], block.Mem ip.unmapped) ∨
        multicast6.Mem ip.unmapped ∧ ip.unmapped.byte 1 &&& 0x0f = 0x02 ∨ Mistaken ip := by
  have hasked : isPrivateIP ip = true ↔
      (ip.isLoopback = true ∨ ip.isLinkLocalUnicast = true ∨ ip.isLinkLocalMulticast = true) ∨
        privateNets.any (·.contains ip) = true ∨
        (ip.to4 = none && ip.equal IP.ipv6Loopback) = true ∨
        (ip.to4 = none && (ip.isLinkLocalUnicast || hasPrefix ip.string "fe80:")) = true ∨
        (ip.to4 = none && (hasPrefix ip.string "fc" || hasPrefix ip.string "fd")) = true := by
    unfold isPrivateIP
    grind
  have hloopback : ip.isLoopback = true ↔ (Block.mk [127, 0, 0, 0] 8).Mem ip.unmapped ∨
      loopback6.Mem ip.unmapped := IP.isLoopback_iff hip
  have hunicast : ip.isLinkLocalUnicast = true ↔ (Block.mk [169, 254, 0, 0] 16).Mem ip.unmapped ∨
      linkLocal6.Mem ip.unmapped := IP.isLinkLocalUnicast_iff hip
  have hmulticast : ip.isLinkLocalMulticast = true ↔
      (Block.mk [224, 0, 0, 0] 24).Mem ip.unmapped ∨
        multicast6.Mem ip.unmapped ∧ ip.unmapped.byte 1 &&& 0x0f = 0x02 :=
    IP.isLinkLocalMulticast_iff hip
  -- what the predicate finds of IPv4 multicast is in the network that is listed
  have hlocal : (Block.mk [224, 0, 0, 0] 24).Mem ip.unmapped →
      (Block.mk [224, 0, 0, 0] 4).Mem ip.unmapped := Block.Mem.of_le (by omega)
  rw [hasked, privateNets_iff, loopback6_asks_iff hip, linkLocal6_asks_iff hip,
    uniqueLocal6_asks_iff hip, hloopback, hunicast, hmulticast]
  simp only [privateBlocks, List.mem_append, List.mem_cons, List.not_mem_nil, or_false,
    or_and_right, exists_or, exists_eq_left]
  grind

/-- The ranges that are asked for have nothing in common with those that are not. -/
theorem not_listed_of_missed {block missed : Block} (hmissed : missed.Mem ip.unmapped)
    (hmem : missed ∈ [unspecified4, unspecified6, multicast6])
    (hblock : block ∈ privateBlocks ++ [loopback6, linkLocal6, uniqueLocal6]) :
    ¬ block.Mem ip.unmapped := by
  intro hlisted
  -- a common address would give the bases the bits of the shorter prefix in common
  have hall : ∀ block ∈ privateBlocks ++ [loopback6, linkLocal6, uniqueLocal6],
      ∀ missed ∈ [unspecified4, unspecified6, multicast6],
        ¬ (Block.mk block.base (min missed.ones block.ones)).Mem missed.base := by
    decide
  exact hall block hblock missed hmem (hmissed.base_mem hlisted)

theorem not_uniqueLocal6_of_mistaken (hmistaken : Mistaken ip) :
    ¬ uniqueLocal6.Mem ip.unmapped := by
  intro hunique
  rcases hmistaken with hmem | hmem
  · exact absurd (hmem.base_mem hunique) (by decide)
  · exact absurd (hmem.base_mem hunique) (by decide)

theorem isPrivateIP_of_missed (hip : ip.length = 4 ∨ ip.length = 16) (hmissed : Missed ip)
    (hmistaken : ¬ Mistaken ip) : isPrivateIP ip = false := by
  obtain ⟨missed, hmem, hblock⟩ : ∃ missed ∈ [unspecified4, unspecified6, multicast6],
      missed.Mem ip.unmapped := by
    rcases hmissed with h | h | ⟨h, -⟩
    · exact ⟨unspecified4, by simp, h⟩
    · exact ⟨unspecified6, by simp, h⟩
    · exact ⟨multicast6, by simp, h⟩
  rw [Bool.eq_false_iff, Ne, isPrivateIP_iff hip, or_iff_left hmistaken]
  rintro (⟨block, hlisted, hasked⟩ | ⟨hmulticast, hscope⟩)
  · exact not_listed_of_missed hblock hmem hlisted hasked
  · rcases hmissed with h | h | ⟨-, hwide⟩
    · exact absurd (h.base_mem hmulticast) (by decide)
    · exact absurd (h.base_mem hmulticast) (by decide)
    · exact hwide hscope

/-- Only the textual test of unique local addresses asks for something else than its range. -/
theorem ranges_iff (hip : ip.length = 4 ∨ ip.length = 16) :
    (∀ range ∈ listedRanges, range.asks ip = true ↔ range.block.Mem ip.unmapped) ↔
      ¬ Mistaken ip := by
  have hunique : (uniqueLocal6.Mem ip.unmapped ∨ Mistaken ip ↔ uniqueLocal6.Mem ip.unmapped) ↔
      ¬ Mistaken ip :=
    ⟨fun hsame hmistaken => not_uniqueLocal6_of_mistaken hmistaken (hsame.1 (.inr hmistaken)),
      fun hmistaken => or_iff_left hmistaken⟩
  rw [← hunique, ← uniqueLocal6_asks_iff hip]
  constructor
  · intro hall
    exact hall _ (List.mem_append_right _ (.tail _ (.tail _ (.head _))))
  · intro hsame
    refine List.forall_mem_append.2 ⟨?_, ?_⟩
    · simp [privateNets, privateBlocks, IP.contains_ipv4_iff]
    · simp only [List.forall_mem_cons, List.not_mem_nil, false_imp_iff, implies_true, and_true]
      exact ⟨loopback6_asks_iff hip, linkLocal6_asks_iff hip, hsame⟩

theorem not_allowed_iff {net : NetPackage} {p : SSRFProtection}
    (hprivate : p.allowPrivateIp = false) :
    p.isIPAccessAllowed net ip = false ↔ isPrivateIP ip = true ∨ ListRejects net p ip := by
  rw [SSRFProtection.isIPAccessAllowed, ListRejects, hprivate]
  cases isPrivateIP ip <;> cases p.ipFilterMode <;> simp

theorem internal_iff : (∃ block ∈ internalBlocks, block.Mem ip.unmapped) ↔
    (∃ block ∈ privateBlocks ++ [loopback6, linkLocal6, uniqueLocal6], block.Mem ip.unmapped) ∨
      unspecified4.Mem ip.unmapped ∨ unspecified6.Mem ip.unmapped ∨ multicast6.Mem ip.unmapped := by
  simp only [internalBlocks, List.mem_append, List.mem_cons, List.not_mem_nil, or_false,
    or_and_right, exists_or, exists_eq_left, or_assoc]

theorem allowed_of_validateName {net : NetPackage} {p : SSRFProtection} {host : String}
    (hvalid : p.validateName net host = .ok ()) : p.isDomainAllowed host = true ∧
      (p.applyIPFilterForDomain = true → ∃ ips, net.lookupIP host = .ok ips ∧
        ∀ ip ∈ ips, p.isIPAccessAllowed net ip = true) := by
  rw [SSRFProtection.validateName] at hvalid
  split at hvalid
  case isTrue => split at hvalid <;> cases hvalid
  case isFalse hdomain =>
    refine ⟨by simpa using hdomain, fun happly => ?_⟩
    rw [if_neg (by simp [happly])] at hvalid
    cases hlookup : net.lookupIP host with
    | error err =>
        rw [hlookup] at hvalid
        cases hvalid
    | ok ips =>
        rw [hlookup] at hvalid
        dsimp only at hvalid
        split at hvalid
        case h_1 => cases hvalid
        case h_2 hfind => exact ⟨ips, rfl, by simpa using hfind⟩

/-- A URL that passes leads to addresses that are allowed, as far as they are looked at. -/
theorem allowed_of_validateURL {net : NetPackage} {p : SSRFProtection} {urlStr : String}
    (hvalid : p.validateURL net urlStr = .ok ()) :
    ∃ u, net.parse urlStr = .ok u ∧
      match net.parseIP (u.hostPort net).1 with
      | some ip => p.isIPAccessAllowed net ip = true
      | none => p.isDomainAllowed (u.hostPort net).1 = true ∧
          (p.applyIPFilterForDomain = true → ∃ ips, net.lookupIP (u.hostPort net).1 = .ok ips ∧
            ∀ ip ∈ ips, p.isIPAccessAllowed net ip = true) := by
  rw [SSRFProtection.validateURL] at hvalid
  split at hvalid
  case h_1 => cases hvalid
  case h_2 u hparse =>
    refine ⟨u, hparse, ?_⟩
    split at hvalid
    case isTrue => cases hvalid
    case isFalse =>
      split at hvalid
      case h_1 => cases hvalid
      case h_2 port hport =>
        split at hvalid
        case isTrue => cases hvalid
        case isFalse =>
          cases hhost : net.parseIP (u.hostPort net).1 with
          | some ip =>
              rw [hhost] at hvalid
              dsimp only at hvalid ⊢
              split at hvalid
              case isTrue => cases hvalid
              case isFalse hallowed => simpa using hallowed
          | none =>
              rw [hhost] at hvalid
              exact allowed_of_validateName hvalid

/-- The address in a URL that passes is in none of the ranges that are asked for. -/
theorem validated_address_not_listed {net : NetPackage} {p : SSRFProtection} {urlStr : String}
    {u : FetchURL} (hprivate : p.allowPrivateIp = false)
    (hip : ip.length = 4 ∨ ip.length = 16) (hvalid : p.validateURL net urlStr = .ok ())
    (hparse : net.parse urlStr = .ok u) (hhost : net.parseIP (u.hostPort net).1 = some ip) :
    ∀ block ∈ privateBlocks ++ [loopback6, linkLocal6, uniqueLocal6], ¬ block.Mem ip.unmapped := by
  intro block hblock hmem
  obtain ⟨u', hparse', hallowed⟩ := allowed_of_validateURL hvalid
  obtain rfl := Except.ok.inj (hparse'.symm.trans hparse)
  rw [hhost] at hallowed
  have hrejected : p.isIPAccessAllowed net ip = false :=
    (not_allowed_iff hprivate).2 (.inl ((isPrivateIP_iff hip).2 (.inl ⟨block, hblock, hmem⟩)))
  exact Bool.false_ne_true (hrejected.symm.trans hallowed)

/-- The filter is complete for an address exactly if a list keeps it out where it is missed, and it
is not mistaken for a unique local one. -/
theorem ssrf_filter_complete_iff (net : NetPackage) (p : SSRFProtection) (ip : IP)
    (hprivate : p.allowPrivateIp = false) (hip : ip.length = 4 ∨ ip.length = 16) :
    Complete net p ip ↔ (Missed ip → ListRejects net p ip) ∧ ¬ Mistaken ip := by
  constructor
  · rintro ⟨hrejects, hranges⟩
    have hmistaken := (ranges_iff hip).1 hranges
    refine ⟨fun hmissed => ?_, hmistaken⟩
    have hinternal : ∃ block ∈ internalBlocks, block.Mem ip.unmapped :=
      internal_iff.2 (.inr (hmissed.imp_right (.imp_right And.left)))
    refine ((not_allowed_iff hprivate).1 (hrejects hinternal)).resolve_left ?_
    rw [isPrivateIP_of_missed hip hmissed hmistaken]
    exact Bool.false_ne_true
  · rintro ⟨hlist, hmistaken⟩
    refine ⟨fun hinternal => (not_allowed_iff hprivate).2 ?_, (ranges_iff hip).2 hmistaken⟩
    rw [isPrivateIP_iff hip]
    rcases internal_iff.1 hinternal with hlisted | h | h | h
    · exact .inl (.inl hlisted)
    · exact .inr (hlist (.inl h))
    · exact .inr (hlist (.inr (.inl h)))
    · by_cases hscope : ip.unmapped.byte 1 &&& 0x0f = 0x02
      · exact .inl (.inr (.inl ⟨h, hscope⟩))
      · exact .inr (hlist (.inr (.inr ⟨h, hscope⟩)))

end

/-- No name is known and nothing is parsed. -/
def emptyNet : NetPackage where
  parse urlStr := .error urlStr
  splitHostPort _ := none
  parseIP _ := none
  parseCIDR _ := none
  lookupIP host := .error ("lookup " ++ host ++ ": no such host")

/-- The filter with an empty black list. -/
def blackListProtection : SSRFProtection where
  allowPrivateIp := false
  domainFilterMode := false
  domainList := []
  ipFilterMode := false
  ipList := []
  allowedPorts := [80, 443, 8080, 8443]
  applyIPFilterForDomain := false

/-- A net package that knows one URL, whose address `ParseIP` gives in sixteen bytes. -/
def publicNet : NetPackage :=
  { emptyNet with
    parse := fun _ => .ok ⟨"http", "8.8.8.8", "8.8.8.8"⟩
    parseIP := fun _ => some (IP.ipv4 8 8 8 8) }

theorem public_address_not_listed :
    blackListProtection.validateURL publicNet "http://8.8.8.8" = .ok () ∧
    ∀ block ∈ privateBlocks ++ [loopback6, linkLocal6, uniqueLocal6],
      ¬ block.Mem (IP.unmapped (IP.ipv4 8 8 8 8)) := by
  have hvalid : blackListProtection.validateURL publicNet "http://8.8.8.8" = .ok () := by decide
  exact ⟨hvalid, validated_address_not_listed rfl (.inr rfl) hvalid rfl rfl⟩

theorem mapped_loopback_complete : Complete emptyNet blackListProtection (IP.ipv4 127 0 0 1) :=
  (ssrf_filter_complete_iff emptyNet blackListProtection (IP.ipv4 127 0 0 1) rfl (.inr rfl)).2
    ⟨by decide, by decide⟩

/-- The unspecified address, which connects to the host itself, is let through. -/
theorem unspecified_address_allowed : ¬ Complete emptyNet blackListProtection [0, 0, 0, 0] := by
  intro hcomplete
  have hrejected := hcomplete.rejects ⟨unspecified4, by decide, by decide⟩
  exact absurd hrejected (by decide)

end Ssrf

end NewApi.Model
