import ClusterEvidence.Proofs.Bytes
import ClusterEvidence.Resource.Encode
import ClusterEvidence.Resource.Decode
import Mathlib.Data.List.TakeWhile

/-!
# Documents made from JSON trees

What a decoder finds in a document that was made from a JSON object is a matter of the
members of the object (`Json.member?`) : a field is the value of the first member with its
key, or its default (`Yaml.fieldOr_ofJson`), and looking further into one is looking into
that value (`Yaml.child_ofJson`).

Numbers within the range asked for, truth values, lists and maps of strings come back as
they were, and so do members that were left out because they are empty. The equations here
are tagged for `simp`, which turns a decoder that is run on what was encoded into the values
that went in.
-/

namespace ClusterEvidence

/-! ## Members -/

namespace Json

variable {k k' v : Bytes} {j : Json} {ms ms' : List (Bytes × Json)}

/-- The value of the first member with a key. -/
def member? (k : Bytes) (ms : List (Bytes × Json)) : Option Json :=
  (ms.find? fun m => m.1 == k).map Prod.snd

/-- A value that is left out on a condition. -/
def valueUnless (c : Bool) (j : Json) : Option Json := if c then none else some j

@[simp] theorem member?_nil : member? k [] = none :=
  rfl

/-- The first member with the key is the one that counts. -/
@[simp] theorem member?_cons : member? k (member k' j :: ms) =
    if k' = k then some j else member? k ms := by
  unfold member? member
  by_cases h : k' = k
  · simp [h]
  · simp [h]

@[simp] theorem member?_cons_field : member? k (field k' v :: ms) =
    if k' = k then some (.str v) else member? k ms :=
  member?_cons

@[simp] theorem member?_cons_fieldNumber {n : Int} : member? k (fieldNumber k' n :: ms) =
    if k' = k then some (.num n) else member? k ms :=
  member?_cons

/-- Members further on count where there are none in front. -/
@[simp] theorem member?_append : member? k (ms ++ ms') = (member? k ms).or (member? k ms') := by
  unfold member?
  rw [List.find?_append, Option.map_or]

/-- A member that is left out on a condition. -/
theorem member?_unless {c : Bool} : member? k (if c then [] else [member k' j]) =
    if k' = k then valueUnless c j else none := by
  cases c with
  | true => simp [valueUnless]
  | false => simp [valueUnless]

/-- A string that is empty is no member. -/
@[simp] theorem member?_fieldIfSet : member? k (fieldIfSet k' v) =
    if k' = k then valueUnless v.isEmpty (.str v) else none :=
  member?_unless

@[simp] theorem member?_nameIfSet : member? k (nameIfSet k' v) =
    if k' = k then valueUnless v.isEmpty (.obj [field "name" v]) else none :=
  member?_unless

@[simp] theorem member?_labelsIfSet {m : Labels} : member? k (labelsIfSet k' m) =
    if k' = k then valueUnless m.isEmpty (labels m) else none :=
  member?_unless

end Json

/-! ## Labels -/

namespace Labels

/-- An entry with a key behind all others goes to the end. -/
theorem insertEntry_last {k : Bytes} (v : Bytes) {l : List (Bytes × Bytes)}
    (h : ∀ e ∈ l, e.1 < k) : insertEntry k v l = l ++ [(k, v)] := by
  induction l with
  | nil => rfl
  | cons e l ih =>
    rw [List.forall_mem_cons] at h
    have hlt : ¬ k < e.1 := List.lt_asymm h.1
    have hne : k ≠ e.1 := fun heq => List.lt_irrefl k (heq ▸ h.1)
    rw [insertEntry, if_neg hlt, if_neg hne, ih h.2, List.cons_append]

theorem eq_of_entries_eq {m m' : Labels} (h : m.entries = m'.entries) : m = m' := by
  cases m
  cases m'
  simpa using h

/-- The entries of a map, inserted in order, are the map. -/
theorem ofList_entries (m : Labels) : ofList m.entries = m := by
  have hfold : ∀ (l : List (Bytes × Bytes)) (m' : Labels),
      ((m'.entries ++ l).map Prod.fst).Pairwise (· < ·) →
      (l.foldl (fun m e => m.insert e.1 e.2) m').entries = m'.entries ++ l := by
    intro l
    induction l with
    | nil => intro m' _; simp
    | cons e l ih =>
      intro m' h
      have hbehind : ∀ e' ∈ m'.entries, e'.1 < e.1 := by
        intro e' he'
        rw [List.map_append, List.pairwise_append] at h
        exact h.2.2 _ (List.mem_map_of_mem he') _ (by simp)
      have hinsert : (m'.insert e.1 e.2).entries = m'.entries ++ [e] := insertEntry_last e.2 hbehind
      rw [List.foldl_cons, ih _ (by rw [hinsert]; simpa using h), hinsert, List.append_assoc,
        List.singleton_append]
  exact eq_of_entries_eq (hfold m.entries empty m.sorted)

end Labels

namespace Yaml

variable {α β : Type} {conv : Yaml → Decoded α} {a : α} {k v : Bytes} {j : Json}
  {ms : List (Bytes × Json)}

/-! ## Fields -/

@[simp] theorem ok_bind (a : α) (f : α → Decoded β) : ((Except.ok a : Decoded α) >>= f) = f a :=
  rfl

/-- A key of a document is that of a member. -/
theorem lookup_ofJsonMembers (k : Bytes) (ms : List (Bytes × Json)) :
    lookup k (ofJsonMembers ms) = (Json.member? k ms).map ofJson := by
  induction ms with
  | nil => rfl
  | cons m ms ih =>
    obtain ⟨k', j⟩ := m
    show lookup k ((scalar k', ofJson j) :: ofJsonMembers ms) =
      (Json.member? k (Json.member k' j :: ms)).map ofJson
    rw [Json.member?_cons, lookup]
    by_cases h : k' = k
    · rw [List.find?_cons_of_pos (by simpa [keyIs] using h), if_pos h]
      rfl
    · rw [List.find?_cons_of_neg (by simpa [keyIs] using h), if_neg h, ← ih, lookup]

@[simp] theorem child_ofJson : child k (some (ofJson (.obj ms))) =
    (Json.member? k ms).map ofJson := by
  rw [ofJson, child, lookup_ofJsonMembers]

/-- A field is read from the value of the member. -/
@[simp] theorem fieldOr_ofJson : fieldOr conv a k (some (ofJson (.obj ms))) =
    valueOr conv a ((Json.member? k ms).map ofJson) := by
  rw [fieldOr, child_ofJson]

@[simp] theorem textField_ofJson : textField k (some (ofJson (.obj ms))) =
    valueOr toText [] ((Json.member? k ms).map ofJson) :=
  fieldOr_ofJson

@[simp] theorem valueOr_none : valueOr conv a none = .ok a :=
  rfl

@[simp] theorem valueOr_str : valueOr toText v (some (ofJson (.str k))) = .ok k := by
  rw [ofJson]
  rfl

@[simp] theorem valueOr_bool {b b' : Bool} :
    valueOr toBool b (some (ofJson (.bool b'))) = .ok b' := by
  cases b' with
  | true => rfl
  | false => rfl

/-- A string that was left out is empty. -/
@[simp] theorem valueOr_valueUnless :
    valueOr toText [] ((Json.valueUnless v.isEmpty (.str v)).map ofJson) = .ok v := by
  cases v with
  | nil => rfl
  | cons b v => rfl

/-- A reference that was left out says nothing. -/
@[simp] theorem textField_valueUnless :
    textField k ((Json.valueUnless v.isEmpty (.obj [Json.field k v])).map ofJson) = .ok v := by
  cases v with
  | nil => rfl
  | cons b v =>
    show textField k (some (ofJson (.obj [Json.field k (b :: v)]))) = _
    simp

/-! ## Numbers -/

theorem magnitude?_digits (n : Nat) : magnitude? 10 (Bytes.digits n) = some n := by
  have hvalue : ∀ b ∈ Bytes.digits n, decide (Bytes.digitValue b < 10) = true := by
    intro b hb
    have hdigit := Bytes.isDigit_of_mem_digits hb
    simp only [Bytes.isDigit, Bool.and_eq_true, decide_eq_true_eq] at hdigit
    have hmost : b.toNat ≤ 0x39 := UInt8.le_iff_toNat_le.1 hdigit.2
    rw [decide_eq_true_eq, Bytes.digitValue, if_pos hdigit]
    omega
  have htake : (Bytes.digits n).takeWhile (fun b => decide (Bytes.digitValue b < 10)) =
      Bytes.digits n := List.takeWhile_eq_self_iff.2 hvalue
  unfold magnitude?
  dsimp only
  rw [htake, List.drop_length, if_pos (by rfl), Bytes.foldl_digits (by decide)]

theorem unsigned?_digits (n : Nat) : unsigned? (Bytes.digits n) = some n := by
  obtain ⟨d, rest, hdigits, hd, hzero⟩ := Bytes.digits_cons n
  have hread := magnitude?_digits n
  by_cases h0 : n = 0
  · subst h0
    rfl
  · have hall : ∀ d < 10, d ≠ 0 → UInt8.ofNat (0x30 + d) ≠ 0x30 ∧
        Bytes.digitValue (UInt8.ofNat (0x30 + d)) < 10 := by decide
    obtain ⟨hne, hlt⟩ := hall d hd (fun h => h0 (hzero h))
    rw [hdigits] at hread ⊢
    simp only [unsigned?, if_neg hne, if_pos hlt, hread]

theorem signed?_decimal (n : Int) : signed? (Bytes.decimal n) = some n := by
  cases n with
  | ofNat n =>
    obtain ⟨d, rest, hdigits, hd, -⟩ := Bytes.digits_cons n
    have hall : ∀ d < 10, UInt8.ofNat (0x30 + d) ≠ 0x2d ∧ UInt8.ofNat (0x30 + d) ≠ 0x2b := by
      decide
    obtain ⟨hminus, hplus⟩ := hall d hd
    have hread := unsigned?_digits n
    rw [hdigits] at hread
    rw [Bytes.decimal, hdigits, signed?, if_neg hminus, if_neg hplus, hread]
    rfl
  | negSucc n =>
    rw [Bytes.decimal, signed?, if_pos rfl, unsigned?_digits]
    rfl

theorem integer?_decimal {least most n : Int} (hleast : least ≤ n) (hmost : n ≤ most) :
    integer? least most (scalar (Bytes.decimal n)) = some n := by
  simp [integer?, text?, signed?_decimal, hleast, hmost]

@[simp] theorem valueOr_int32 {n m : Int32} :
    valueOr toInt32 m (some (ofJson (.num n.toInt))) = .ok n := by
  show toInt32 (scalar (Bytes.decimal n.toInt)) = _
  rw [toInt32, integer?_decimal (Int32.minValue_le_toInt n) (Int32.toInt_le n)]
  exact congrArg Except.ok (Int32.ofInt_toInt n)

@[simp] theorem valueOr_int64 {n m : Int64} :
    valueOr toInt64 m (some (ofJson (.num n.toInt))) = .ok n := by
  show toInt64 (scalar (Bytes.decimal n.toInt)) = _
  rw [toInt64, integer?_decimal (Int64.minValue_le_toInt n) (Int64.toInt_le n)]
  exact congrArg Except.ok (Int64.ofInt_toInt n)

/-! ## Lists and maps -/

theorem ofJsonItems_eq_map (l : List Json) : ofJsonItems l = l.map ofJson := by
  induction l with
  | nil => rfl
  | cons j l ih => rw [ofJsonItems, ih, List.map_cons]

theorem ofJsonMembers_eq_map (ms : List (Bytes × Json)) :
    ofJsonMembers ms = ms.map fun m => (scalar m.1, ofJson m.2) := by
  induction ms with
  | nil => rfl
  | cons m ms ih => rw [ofJsonMembers, ih, List.map_cons]

/-- Decoding each of what was encoded one by one. -/
theorem mapM_map_ok (item : β → Decoded α) {f : α → β} {l : List α}
    (h : ∀ x ∈ l, item (f x) = .ok x) : (l.map f).mapM item = .ok l := by
  induction l with
  | nil => rfl
  | cons x l ih =>
    rw [List.forall_mem_cons] at h
    simp [h.1, ih h.2]

@[simp] theorem objects_none {item : Option Yaml → Decoded α} : objects item none = .ok [] :=
  rfl

theorem objects_ofJson {item : Option Yaml → Decoded α} {f : α → Json} {l : List α}
    (h : ∀ x, item (some (ofJson (f x))) = .ok x) :
    objects item (some (ofJson (.arr (l.map f)))) = .ok l := by
  show ((ofJsonItems (l.map f)).mapM fun v => item (some v)) = _
  rw [ofJsonItems_eq_map, List.map_map]
  exact mapM_map_ok _ (fun x _ => h x)

@[simp] theorem texts_ofJson {l : List Bytes} : texts (some (ofJson (Json.strings l))) = .ok l := by
  show (ofJsonItems (l.map Json.str)).mapM toText = _
  rw [ofJsonItems_eq_map, List.map_map]
  exact mapM_map_ok toText (fun x _ => rfl)

end Yaml

namespace Labels

theorem decode_labels (m : Labels) : decode (some (Yaml.ofJson (Json.labels m))) = .ok m := by
  show ((Yaml.ofJsonMembers _).mapM Yaml.labelEntry).map ofList = _
  rw [Yaml.ofJsonMembers_eq_map, List.map_map,
    Yaml.mapM_map_ok Yaml.labelEntry (l := m.entries) (fun e _ => rfl)]
  exact congrArg Except.ok (ofList_entries m)

/-- A map that was left out has no entries. -/
@[simp] theorem decode_valueUnless (m : Labels) :
    decode ((Json.valueUnless m.isEmpty (Json.labels m)).map Yaml.ofJson) = .ok m := by
  cases hm : m.isEmpty with
  | true => exact congrArg Except.ok (eq_of_entries_eq (List.isEmpty_iff.1 hm).symm)
  | false => exact decode_labels m

end Labels

end ClusterEvidence
