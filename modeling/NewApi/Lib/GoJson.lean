import Mathlib.Order.Fin.Basic
import NewApi.Lib.Base64
import NewApi.Lib.GoValue
import NewApi.Lib.JsonText

/-!
# JSON of Go values

How `encoding/json` writes a value, and how it reads one into a value that is already there.  What
is not in the text stays: the entries of a map, the fields that are left out, and below the items of
a slice what its array held before.  A value is read back exactly if it restores the old one in this
sense.
-/

namespace NewApi.Lib.Go

open Strings

variable {F : FloatWidth → Type} (lib : GoLibrary F)

/-! ## Writing -/

/-- Whether a value has a JSON: it is written without infinities and NaN. -/
def hasJson : (t : GoType) → Value F t → Bool
  | .float _ => fun x => lib.isFinite x
  | .slice elem => fun v => v.all fun s => s.items.all (hasJson elem)
  | .map _ elem => fun v => v.all fun m => m.entries.all fun entry => hasJson elem entry.2
  | .struct n field type => fun v => (List.finRange n).all fun i =>
      !written lib field type v i || hasJson (type i) (v i)
  | .ptr elem => fun v => v.all (hasJson elem)
  | _ => fun _ => true

/-- The entries by the order of their keys. -/
def sortedEntries {α : Type} {key : KeyType} (m : AList fun _ : key.Carrier => α) :
    List (Sigma fun _ : key.Carrier => α) :=
  m.entries.mergeSort fun e e' => key.text e.1 ≤ key.text e'.1

/-- The value as JSON. -/
def json : (t : GoType) → Value F t → Json
  | .string => fun s : String => .str (Json.quote s)
  | .bool => fun b : Bool => .bool b
  | .int width => fun n : BitVec width.bits => .num (itoa n.toInt).toList
  | .uint width => fun n : BitVec width.bits => .num n.toNat.repr.toList
  | .float _ => fun x => .num (lib.floatNumber x)
  | .bytes => fun v : Option (Slice (BitVec 8)) =>
      match v with
      | none => .null
      | some s => .str (Json.quote (String.ofList (Base64.encode s.items)))
  | .slice elem => fun v : Option (Slice (Value F elem)) =>
      match v with
      | none => .null
      | some s => .arr (s.items.map (json elem))
  | .map key elem => fun v : Option (AList fun _ : key.Carrier => Value F elem) =>
      match v with
      | none => .null
      | some m => .obj <| (sortedEntries m).map fun entry =>
          (Json.quote (key.text entry.1), json elem entry.2)
  | .struct n field type => fun v => .obj <| ((List.finRange n).filter (written lib field type v)).map
      fun i => (Json.quote ((field i).jsonName lib), json (type i) (v i))
  | .ptr elem => fun v : Option (Value F elem) =>
      match v with
      | none => .null
      | some v => json elem v

/-- `json.Marshal`. -/
def marshal (t : GoType) (v : Value F t) : Option String :=
  if hasJson lib t v then some (String.ofList (Json.text (json lib t v))) else none

/-! ## Reading -/

/-- The items and what stands behind them. -/
def roomOf {α : Type} (v : Option (Slice α)) : List α :=
  v.elim [] Slice.room

/-- Reads every item into what stands at its place, or into a zero value. -/
def readItems {α : Type} (read : Json → α → α) (zero : α) : List Json → List α → List α
  | [], _ => []
  | doc :: docs, room => read doc (room.headD zero) :: readItems read zero docs room.tail

/-- An array is read into the room that there is; an empty one gives a new slice. -/
def readSlice {α : Type} (read : Json → α → α) (zero : α) (docs : List Json)
    (old : Option (Slice α)) : Slice α :=
  if docs = [] then ⟨[], []⟩
  else ⟨readItems read zero docs (roomOf old), (roomOf old).drop docs.length⟩

/-- The fields of an object as entries, each read into a zero value. -/
def readEntries {α : Type} (key : KeyType) (read : Json → α → α) (zero : α)
    (fields : List (List Char × Json)) (old : AList fun _ : key.Carrier => α) :
    AList fun _ : key.Carrier => α :=
  fields.foldl (fun m field =>
    match key.ofText (Json.unquote field.1) with
    | some k => m.insert k (read field.2 zero)
    | none => m) old

/-- The fields of an object, each read into the field of its name, if there is one. -/
def readFields {n : ℕ} (field : Fin n → StructField) {α : Fin n → Type}
    (read : (i : Fin n) → Json → α i → α i) (fields : List (List Char × Json))
    (old : (i : Fin n) → α i) : (i : Fin n) → α i :=
  fields.foldl (fun v member =>
    match fieldNamed lib field (Json.unquote member.1) with
    | some i => Function.update v i (read i member.2 (v i))
    | none => v) old

/-- Reads JSON into a value; what does not fit leaves it as it is. -/
def readJson : (t : GoType) → Json → Value F t → Value F t
  | .string => fun doc (old : String) =>
      match doc with
      | .str raw => Json.unquote raw
      | _ => old
  | .bool => fun doc (old : Bool) =>
      match doc with
      | .bool b => b
      | _ => old
  | .int width => fun doc (old : BitVec width.bits) =>
      match doc with
      | .num digits => (width.ofText (String.ofList digits)).getD old
      | _ => old
  | .uint width => fun doc (old : BitVec width.bits) =>
      match doc with
      | .num digits => (width.ofUnsignedText (String.ofList digits)).getD old
      | _ => old
  | .float width => fun doc (old : F width) =>
      match doc with
      | .num digits => (lib.ofNumber width digits).getD old
      | _ => old
  | .bytes => fun doc (old : Option (Slice (BitVec 8))) =>
      match doc with
      | .null => none
      | .str raw => (Base64.decode (Json.unquote raw).toList).elim old fun bytes => some ⟨bytes, []⟩
      | .arr docs => some (readSlice (fun doc byte =>
          match doc with
          | .num digits => (IntWidth.w8.ofUnsignedText (String.ofList digits)).getD byte
          | _ => byte) 0 docs old)
      | _ => old
  | .slice elem => fun doc (old : Option (Slice (Value F elem))) =>
      match doc with
      | .null => none
      | .arr docs => some (readSlice (readJson elem) (zero lib elem) docs old)
      | _ => old
  | .map key elem => fun doc (old : Option (AList fun _ : key.Carrier => Value F elem)) =>
      match doc with
      | .null => none
      | .obj fields => some (readEntries key (readJson elem) (zero lib elem) fields (old.getD ∅))
      | _ => old
  | .struct _ field type => fun doc old =>
      match doc with
      | .obj fields => readFields lib field (fun i => readJson (type i)) fields old
      | _ => old
  | .ptr elem => fun doc (old : Option (Value F elem)) =>
      match doc with
      | .null => none
      | doc => some (readJson elem doc (old.getD (zero lib elem)))

/-- `json.Unmarshal` with a limit to the nesting; a text that is no JSON changes nothing. -/
def unmarshal (limit : ℕ) (t : GoType) (text : String) (old : Value F t) : Value F t :=
  match Json.parse limit text.toList with
  | some doc => readJson lib t doc old
  | none => old

/-! ## What reading restores -/

/-- Reading the JSON of the new value into the old one gives the new one: floats are finite, no
entry of an old map is gone from the new one, the fields that are not written are the same, and a
pointer to something that is written as null is not nil otherwise.  Items are read into what stands
at their place, entries into zero values. -/
def Restores : (t : GoType) → Value F t → Value F t → Prop
  | .float _ => fun _ new => lib.isFinite new = true
  | .slice elem => fun old (new : Option (Slice (Value F elem))) =>
      ∀ s, new = some s → ∀ i (hi : i < s.items.length),
        Restores elem ((roomOf old).getD i (zero lib elem)) s.items[i]
  | .map key elem => fun (old new : Option (AList fun _ : key.Carrier => Value F elem)) =>
      ∀ m, new = some m → (∀ l, old = some l → ∀ k ∈ l, k ∈ m) ∧
        ∀ k v, m.lookup k = some v → Restores elem (zero lib elem) v
  | .struct _ field type => fun old new => ∀ i,
      if written lib field type new i = true then Restores (type i) (old i) (new i)
      else Same (type i) (old i) (new i)
  | .ptr elem => fun (old new : Option (Value F elem)) =>
      ∀ v, new = some v → json lib elem v ≠ .null ∧ Restores elem (old.getD (zero lib elem)) v
  | _ => fun _ _ => True

section

variable {lib}

/-! ## Items, entries and fields -/

section

variable {α : Type} {read : Json → α → α} {doc : α → Json} {base : α}

/-- Items are read back exactly if each is, at its place. -/
theorem forall₂_readItems_iff {R restores : α → α → Prop} {has : α → Bool}
    (hread : ∀ old new, has new = true ∧ R (read (doc new) old) new ↔ restores old new)
    (items room : List α) :
    items.all has = true ∧ List.Forall₂ R (readItems read base (items.map doc) room) items ↔
      ∀ i (hi : i < items.length), restores (room.getD i base) items[i] := by
  induction items generalizing room with
  | nil =>
      refine iff_of_true ⟨rfl, .nil⟩ fun i hi => ?_
      cases hi
  | cons item items ih =>
      have hfirst : room.headD base = room.getD 0 base := by
        cases room <;> rfl
      have htail : ∀ i, room.tail.getD i base = room.getD (i + 1) base := by
        intro i
        cases room <;> rfl
      rw [List.all_cons, Bool.and_eq_true, List.map_cons, readItems, List.forall₂_cons, and_and_and_comm,
        hread, ih, hfirst]
      constructor
      · intro hall i hi
        cases i with
        | zero => exact hall.1
        | succ i =>
            rw [← htail]
            exact hall.2 i (Nat.lt_of_succ_lt_succ hi)
      · intro hall
        refine ⟨hall 0 (Nat.zero_lt_succ _), fun i hi => ?_⟩
        rw [htail]
        exact hall (i + 1) (Nat.succ_lt_succ hi)

/-- Entries that are read replace those of the same keys. -/
theorem lookup_readEntries {key : KeyType} {l : List (Sigma fun _ : key.Carrier => α)}
    (hl : l.NodupKeys) (old : AList fun _ : key.Carrier => α) (k : key.Carrier) :
    (readEntries key read base (l.map fun e => (Json.quote (key.text e.1), doc e.2)) old).lookup k =
      ((l.dlookup k).map fun v => read (doc v) base).or (old.lookup k) := by
  induction l generalizing old with
  | nil => rfl
  | cons e l ih =>
      obtain ⟨hne, hrest⟩ := List.nodupKeys_cons.1 hl
      have hstep : readEntries key read base
          ((e :: l).map fun e => (Json.quote (key.text e.1), doc e.2)) old =
            readEntries key read base (l.map fun e => (Json.quote (key.text e.1), doc e.2))
              (old.insert e.1 (read (doc e.2) base)) := by
        simp only [readEntries, List.map_cons, List.foldl_cons, Json.unquote_quote, key.ofText_text]
      rw [hstep, ih hrest]
      by_cases hk : k = e.1
      · subst hk
        rw [List.dlookup_eq_none.2 hne, AList.lookup_insert, List.dlookup_cons_eq]
        rfl
      · rw [AList.lookup_insert_ne hk, List.dlookup_cons_ne _ _ hk]

end

/-- Each field that is read is read once. -/
theorem readFields_eq {n : ℕ} {field : Fin n → StructField} {α : Fin n → Type}
    (read : (i : Fin n) → Json → α i → α i) (doc : Fin n → Json) {l : List (Fin n)} (hl : l.Nodup)
    (hvisible : ∀ i ∈ l, visible lib field i = true) (old : (i : Fin n) → α i) :
    readFields lib field read (l.map fun i => (Json.quote ((field i).jsonName lib), doc i)) old =
      fun i => if i ∈ l then read i (doc i) (old i) else old i := by
  induction l generalizing old with
  | nil => rfl
  | cons j l ih =>
      rw [List.forall_mem_cons] at hvisible
      rw [List.nodup_cons] at hl
      have hstep : readFields lib field read
          ((j :: l).map fun i => (Json.quote ((field i).jsonName lib), doc i)) old =
            readFields lib field read (l.map fun i => (Json.quote ((field i).jsonName lib), doc i))
              (Function.update old j (read j (doc j) (old j))) := by
        simp only [readFields, List.map_cons, List.foldl_cons, Json.unquote_quote,
          fieldNamed_jsonName hvisible.1]
      rw [hstep, ih hl.2 hvisible.2]
      funext i
      by_cases hi : i = j
      · subst hi
        rw [if_neg hl.1, if_pos List.mem_cons_self, Function.update_self]
      · simp only [List.mem_cons, hi, false_or, Function.update_of_ne hi]

/-! ## The law -/

/-- The value has a JSON which, read into the old value, gives the value. -/
def ReadsBack (lib : GoLibrary F) (t : GoType) (old new : Value F t) : Prop :=
  hasJson lib t new = true ∧ Same t (readJson lib t (json lib t new) old) new

theorem readsBack_int (width : IntWidth) (old new : BitVec width.bits) :
    ReadsBack lib (.int width) old new := by
  refine ⟨rfl, ?_⟩
  show (width.ofText (String.ofList (itoa new.toInt).toList)).getD old = new
  rw [String.ofList_toList, width.ofText_itoa, Option.getD_some]

theorem readsBack_uint (width : IntWidth) (old new : BitVec width.bits) :
    ReadsBack lib (.uint width) old new := by
  refine ⟨rfl, ?_⟩
  show (width.ofUnsignedText (String.ofList new.toNat.repr.toList)).getD old = new
  rw [String.ofList_toList, width.ofUnsignedText_repr, Option.getD_some]

theorem readsBack_float_iff {width : FloatWidth} (old new : F width) :
    ReadsBack lib (.float width) old new ↔ lib.isFinite new = true := by
  refine and_iff_left_of_imp fun hfinite => ?_
  show (lib.ofNumber width (lib.floatNumber new)).getD old = new
  rw [lib.ofNumber_floatNumber new hfinite, Option.getD_some]

theorem readsBack_bytes (old new : Option (Slice (BitVec 8))) : ReadsBack lib .bytes old new := by
  refine ⟨rfl, ?_⟩
  cases new with
  | none => exact .none
  | some s =>
      show Option.Rel _ ((Base64.decode (Json.unquote (Json.quote
        (String.ofList (Base64.encode s.items)))).toList).elim old fun bytes => some ⟨bytes, []⟩) _
      rw [Json.unquote_quote, String.toList_ofList, Base64.decode_encode]
      exact .some rfl

theorem readsBack_slice_iff {elem : GoType}
    (hlaw : ∀ old new, ReadsBack lib elem old new ↔ Restores lib elem old new)
    (old new : Option (Slice (Value F elem))) :
    ReadsBack lib (.slice elem) old new ↔ Restores lib (.slice elem) old new := by
  cases new with
  | none => exact iff_of_true ⟨rfl, .none⟩ fun s hs => nomatch hs
  | some s =>
      have hread : (readSlice (readJson lib elem) (zero lib elem) (s.items.map (json lib elem))
          old).items = readItems (readJson lib elem) (zero lib elem) (s.items.map (json lib elem))
            (roomOf old) := by
        unfold readSlice
        split
        case isTrue hnil =>
          rw [hnil]
          rfl
        case isFalse => rfl
      show s.items.all (hasJson lib elem) = true ∧ Option.Rel _ (some _) (some s) ↔ _
      rw [Option.rel_some_some, hread, forall₂_readItems_iff hlaw]
      exact ⟨fun hall t ht => Option.some.inj ht ▸ hall, fun hall => hall s rfl⟩

theorem nodupKeys_sortedEntries {α : Type} {key : KeyType} (m : AList fun _ : key.Carrier => α) :
    (sortedEntries m).NodupKeys :=
  (List.perm_nodupKeys (List.mergeSort_perm _ _)).2 m.nodupKeys

theorem dlookup_sortedEntries {α : Type} {key : KeyType} (m : AList fun _ : key.Carrier => α)
    (k : key.Carrier) : (sortedEntries m).dlookup k = m.lookup k :=
  List.perm_dlookup k (nodupKeys_sortedEntries m) (List.mergeSort_perm _ _)

/-- Entries are read back exactly if no key is gone and each is read back from a zero value. -/
theorem readEntries_same_iff {key : KeyType} {elem : GoType}
    (hlaw : ∀ old new, ReadsBack lib elem old new ↔ Restores lib elem old new)
    (l m : AList fun _ : key.Carrier => Value F elem) :
    ((m.entries.all fun entry => hasJson lib elem entry.2) = true ∧
        ∀ k, Option.Rel (Same elem) (((m.lookup k).map fun v =>
          readJson lib elem (json lib elem v) (zero lib elem)).or (l.lookup k)) (m.lookup k)) ↔
      (∀ k ∈ l, k ∈ m) ∧ ∀ k v, m.lookup k = some v → Restores lib elem (zero lib elem) v := by
  rw [List.all_eq_true]
  constructor
  · intro hread
    obtain ⟨hjson, hsame⟩ := hread
    refine ⟨fun k hk => ?_, fun k v hlookup => ?_⟩
    · by_contra hgone
      have hrel := hsame k
      obtain ⟨v, hv⟩ := Option.isSome_iff_exists.1 (AList.lookup_isSome.2 hk)
      rw [AList.lookup_eq_none.2 hgone, hv] at hrel
      cases hrel
    · have hrel := hsame k
      rw [hlookup] at hrel
      exact (hlaw _ _).1 ⟨hjson ⟨k, v⟩ (AList.mem_lookup_iff.1 hlookup), Option.rel_some_some.1 hrel⟩
  · intro hrestores
    obtain ⟨hkeys, hvalues⟩ := hrestores
    refine ⟨fun entry hentry => ?_, fun k => ?_⟩
    · exact ((hlaw _ _).2 (hvalues entry.1 entry.2 (AList.mem_lookup_iff.2 hentry))).1
    · cases hlookup : m.lookup k with
      | some v => exact .some ((hlaw _ _).2 (hvalues k v hlookup)).2
      | none =>
          have hgone : k ∉ l := fun hk => AList.lookup_eq_none.1 hlookup (hkeys k hk)
          rw [AList.lookup_eq_none.2 hgone]
          exact .none

theorem readsBack_map_iff {key : KeyType} {elem : GoType}
    (hlaw : ∀ old new, ReadsBack lib elem old new ↔ Restores lib elem old new)
    (old new : Option (AList fun _ : key.Carrier => Value F elem)) :
    ReadsBack lib (.map key elem) old new ↔ Restores lib (.map key elem) old new := by
  cases new with
  | none => exact iff_of_true ⟨rfl, .none⟩ fun s hs => nomatch hs
  | some m =>
      have hlookup : ∀ k, (readEntries key (readJson lib elem) (zero lib elem)
          ((sortedEntries m).map fun e => (Json.quote (key.text e.1), json lib elem e.2))
          (old.getD ∅)).lookup k =
            ((m.lookup k).map fun v => readJson lib elem (json lib elem v) (zero lib elem)).or
              ((old.getD ∅).lookup k) := by
        intro k
        rw [lookup_readEntries (nodupKeys_sortedEntries m), dlookup_sortedEntries]
      have hkeys : (∀ k ∈ old.getD ∅, k ∈ m) ↔ ∀ l, old = some l → ∀ k ∈ l, k ∈ m := by
        cases old with
        | none =>
            exact iff_of_true (fun k hk => absurd hk (AList.notMem_empty k)) fun l hl => nomatch hl
        | some l => exact ⟨fun hall l' hl => Option.some.inj hl ▸ hall, fun hall => hall l rfl⟩
      show (m.entries.all fun entry => hasJson lib elem entry.2) = true ∧ Option.Rel
        (fun m l => ∀ k, Option.Rel (Same elem) (AList.lookup k m) (AList.lookup k l))
        (some (readEntries key _ _ _ _)) (some m) ↔ _
      rw [Option.rel_some_some, forall_congr' fun k => by rw [hlookup k], readEntries_same_iff hlaw,
        hkeys]
      exact ⟨fun hall l hl => Option.some.inj hl ▸ hall, fun hall => hall m rfl⟩

theorem readsBack_struct_iff {n : ℕ} {field : Fin n → StructField} {type : Fin n → GoType}
    (hlaw : ∀ i old new, ReadsBack lib (type i) old new ↔ Restores lib (type i) old new)
    (old new : (i : Fin n) → Value F (type i)) :
    ReadsBack lib (.struct n field type) old new ↔ Restores lib (.struct n field type) old new := by
  have hvisible : ∀ i ∈ (List.finRange n).filter (written lib field type new),
      visible lib field i = true := by
    intro i hi
    have hwritten := (List.mem_filter.1 hi).2
    rw [written, Bool.and_eq_true, Bool.and_eq_true] at hwritten
    exact hwritten.1.1
  have hmem : ∀ i, i ∈ (List.finRange n).filter (written lib field type new) ↔
      written lib field type new i = true := by
    intro i
    rw [List.mem_filter, and_iff_right (List.mem_finRange i)]
  have hread : ∀ i, readJson lib (.struct n field type) (json lib (.struct n field type) new) old i =
      if i ∈ (List.finRange n).filter (written lib field type new) then
        readJson lib (type i) (json lib (type i) (new i)) (old i) else old i := by
    rw [json, readJson]
    exact congrFun (readFields_eq (fun i => readJson lib (type i)) (fun i => json lib (type i) (new i))
      ((List.nodup_finRange n).filter _) hvisible old)
  show ((List.finRange n).all fun i =>
      !written lib field type new i || hasJson lib (type i) (new i)) = true ∧
    (∀ i, Same (type i) (readJson lib (.struct n field type) _ old i) (new i)) ↔ _
  have hall : (∀ i ∈ List.finRange n, (!written lib field type new i ||
      hasJson lib (type i) (new i)) = true) ↔
        ∀ i, (!written lib field type new i || hasJson lib (type i) (new i)) = true :=
    forall_congr' fun i => forall_prop_of_true (List.mem_finRange i)
  rw [List.all_eq_true, hall, ← forall_and]
  refine forall_congr' fun i => ?_
  rw [hread]
  by_cases hwritten : written lib field type new i = true
  · rw [if_pos ((hmem i).2 hwritten), if_pos hwritten, hwritten, Bool.not_true, Bool.false_or]
    exact hlaw i (old i) (new i)
  · rw [if_neg (mt (hmem i).1 hwritten), if_neg hwritten, Bool.eq_false_of_not_eq_true hwritten,
      Bool.not_false, Bool.true_or, and_iff_right rfl]

theorem readsBack_ptr_iff {elem : GoType}
    (hlaw : ∀ old new, ReadsBack lib elem old new ↔ Restores lib elem old new)
    (old new : Option (Value F elem)) :
    ReadsBack lib (.ptr elem) old new ↔ Restores lib (.ptr elem) old new := by
  cases new with
  | none => exact iff_of_true ⟨rfl, .none⟩ fun s hs => nomatch hs
  | some v =>
      by_cases hnull : json lib elem v = .null
      · refine iff_of_false (fun hread => ?_) fun hrestores => (hrestores v rfl).1 hnull
        have hsame : Option.Rel (Same elem) (readJson lib (.ptr elem) (json lib elem v) old)
          (some v) := hread.2
        rw [hnull] at hsame
        cases hsame
      · have hread : readJson lib (.ptr elem) (json lib elem v) old =
            some (readJson lib elem (json lib elem v) (old.getD (zero lib elem))) := by
          show (match json lib elem v with
            | .null => none
            | doc => some (readJson lib elem doc (old.getD (zero lib elem)))) = _
          split
          case h_1 hsame => exact absurd hsame hnull
          case h_2 => rfl
        show hasJson lib elem v = true ∧
          Option.Rel (Same elem) (readJson lib (.ptr elem) (json lib elem v) old) (some v) ↔ _
        rw [hread, Option.rel_some_some]
        constructor
        · intro hback w hw
          cases hw
          exact ⟨hnull, (hlaw _ _).1 hback⟩
        · intro hrestores
          exact (hlaw _ _).2 (hrestores v rfl).2

/-- The JSON of a value, read into another one, gives the value exactly if it restores it. -/
theorem readsBack_iff (t : GoType) (old new : Value F t) :
    ReadsBack lib t old new ↔ Restores lib t old new := by
  induction t with
  | string => exact iff_of_true ⟨rfl, Json.unquote_quote new⟩ trivial
  | bool => exact iff_of_true ⟨rfl, rfl⟩ trivial
  | int width => exact iff_of_true (readsBack_int width old new) trivial
  | uint width => exact iff_of_true (readsBack_uint width old new) trivial
  | float width => exact readsBack_float_iff old new
  | bytes => exact iff_of_true (readsBack_bytes old new) trivial
  | slice elem ih => exact readsBack_slice_iff ih old new
  | map key elem ih => exact readsBack_map_iff ih old new
  | struct n field type ih => exact readsBack_struct_iff ih old new
  | ptr elem ih => exact readsBack_ptr_iff ih old new

/-! ## Texts -/

theorem wellFormed_fields {ι : Type} {l : List ι} {name : ι → String} {doc : ι → Json}
    (hdoc : ∀ i ∈ l, Json.WellFormed (doc i)) :
    Json.WellFormed (.obj (l.map fun i => (Json.quote (name i), doc i))) := by
  refine .obj (fun member hmember => ?_) fun member hmember => ?_
  · obtain ⟨i, -, rfl⟩ := List.mem_map.1 hmember
    exact ⟨name i, rfl⟩
  · obtain ⟨i, hi, rfl⟩ := List.mem_map.1 hmember
    exact hdoc i hi

theorem wellFormed_json (t : GoType) (v : Value F t) (hjson : hasJson lib t v = true) :
    Json.WellFormed (json lib t v) := by
  induction t with
  | string => exact .str v
  | bool => exact .bool v
  | int width => exact .num (Json.isNumber_itoa _)
  | uint width => exact .num (Json.isNumber_repr _)
  | float width => exact .num (lib.isNumber_floatNumber v hjson)
  | bytes =>
      cases v with
      | none => exact .null
      | some s => exact .str _
  | slice elem ih =>
      cases v with
      | none => exact .null
      | some s =>
          refine .arr fun doc hdoc => ?_
          obtain ⟨item, hitem, rfl⟩ := List.mem_map.1 hdoc
          exact ih item (List.all_eq_true.1 hjson item hitem)
  | map key elem ih =>
      cases v with
      | none => exact .null
      | some m =>
          refine wellFormed_fields fun entry hentry => ih entry.2 ?_
          exact List.all_eq_true.1 hjson entry ((List.mergeSort_perm _ _).mem_iff.1 hentry)
  | struct n field type ih =>
      refine wellFormed_fields fun i hi => ih i (v i) ?_
      have hfield := List.all_eq_true.1 hjson i (List.mem_finRange i)
      rw [(List.mem_filter.1 hi).2, Bool.not_true, Bool.false_or] at hfield
      exact hfield
  | ptr elem ih =>
      cases v with
      | none => exact .null
      | some v => exact ih v hjson

theorem marshal_eq_some_iff {t : GoType} {v : Value F t} {text : String} :
    marshal lib t v = some text ↔
      hasJson lib t v = true ∧ text = String.ofList (Json.text (json lib t v)) := by
  rw [marshal, Option.ite_none_right_eq_some, Option.some.injEq]
  exact and_congr_right fun _ => eq_comm

theorem unmarshal_text {limit : ℕ} {t : GoType} {new : Value F t} (old : Value F t)
    (hjson : hasJson lib t new = true) :
    unmarshal lib limit t (String.ofList (Json.text (json lib t new))) old =
      if Json.depth (json lib t new) ≤ limit then readJson lib t (json lib t new) old else old := by
  rw [unmarshal, String.toList_ofList, Json.parse_text (wellFormed_json t new hjson)]
  by_cases hdepth : Json.depth (json lib t new) ≤ limit
  · rw [if_pos hdepth, if_pos hdepth]
  · rw [if_neg hdepth, if_neg hdepth]

variable (lib) in
/-- The value has a JSON, and restores the old one if this is not nested too deeply to be read. -/
def RestoresText (limit : ℕ) (t : GoType) (old new : Value F t) : Prop :=
  hasJson lib t new = true ∧
    if Json.depth (json lib t new) ≤ limit then Restores lib t old new else Same t old new

/-- What was written is read back exactly if it restores the old value. -/
theorem unmarshal_marshal_iff {limit : ℕ} {t : GoType} {old new : Value F t} :
    (∃ text, marshal lib t new = some text ∧ Same t (unmarshal lib limit t text old) new) ↔
      RestoresText lib limit t old new := by
  simp only [marshal_eq_some_iff, and_assoc, exists_and_left, exists_eq_left]
  refine and_congr_right fun hjson => ?_
  rw [unmarshal_text old hjson]
  split
  · rw [← readsBack_iff, ReadsBack, and_iff_right hjson]
  · rfl

end

end NewApi.Lib.Go
