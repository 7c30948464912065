import ClusterEvidence.Bytes

/-!
# Pieces and digits of byte strings

`Bytes.pieces` cuts at every separator : no piece has one (`notMem_of_mem_pieces`), a text
without separators is its only piece (`pieces_of_notMem`), and two texts with a separator
between them have the pieces of both (`pieces_append_cons`). So the pieces of lines that
are ended one by one are the lines (`pieces_lines`).

`sorted` and `dropRepeats` leave the distinct strings of a list in strict order
(`dropRepeats_sorted`), and there is one such list of the same strings (`eq_of_pairwise_lt`).

The digits of a number read back as the number, whoever reads them (`foldl_digits`), and only
zero starts with a zero (`digits_cons`). What is to be said of a byte in hexadecimal digits is
said digit by digit (`of_mem_hex`).
-/

namespace ClusterEvidence

namespace Bytes

variable {sep : UInt8} {s t p : Bytes}

variable (sep) in
theorem pieces_ne_nil : ∀ s : Bytes, pieces sep s ≠ []
  | [] => by simp [pieces]
  | b :: s => by
    unfold pieces
    split
    · simp
    · split
      · simp
      · simp

/-- A byte that is no separator goes in front of the first piece. -/
theorem pieces_cons_of_ne {b : UInt8} (hb : b ≠ sep) {ps : List Bytes}
    (h : pieces sep s = p :: ps) : pieces sep (b :: s) = (b :: p) :: ps := by
  rw [pieces, if_neg hb, h]

theorem pieces_cons_self (s : Bytes) : pieces sep (sep :: s) = [] :: pieces sep s := by
  rw [pieces, if_pos rfl]

/-- A text without separators stands in front of the first piece of what follows. -/
theorem pieces_append_of_notMem {ps : List Bytes} (hs : sep ∉ s) (h : pieces sep t = p :: ps) :
    pieces sep (s ++ t) = (s ++ p) :: ps := by
  induction s with
  | nil => exact h
  | cons b s ih =>
    rw [List.mem_cons, not_or] at hs
    exact pieces_cons_of_ne (Ne.symm hs.1) (ih hs.2)

/-- A text without separators is its only piece. -/
theorem pieces_of_notMem (hs : sep ∉ s) : pieces sep s = [s] := by
  have h : pieces sep (s ++ []) = [s ++ []] := pieces_append_of_notMem hs rfl
  rwa [List.append_nil] at h

/-- A separator cuts a text in two, and each side is cut on its own. -/
theorem pieces_append_cons (s t : Bytes) :
    pieces sep (s ++ sep :: t) = pieces sep s ++ pieces sep t := by
  induction s with
  | nil => exact pieces_cons_self t
  | cons b s ih =>
    by_cases hb : b = sep
    · subst hb
      rw [List.cons_append, pieces_cons_self, pieces_cons_self, ih, List.cons_append]
    · obtain ⟨p, ps, hp⟩ := List.exists_cons_of_ne_nil (pieces_ne_nil sep s)
      rw [List.cons_append, pieces_cons_of_ne hb hp, List.cons_append]
      refine pieces_cons_of_ne hb ?_
      rw [ih, hp, List.cons_append]

/-- Lines that are ended one by one, and nothing behind the last. -/
theorem pieces_lines {lines : List Bytes} (h : ∀ l ∈ lines, sep ∉ l) :
    pieces sep (lines.flatMap (· ++ [sep])) = lines ++ [[]] := by
  induction lines with
  | nil => rfl
  | cons l lines ih =>
    rw [List.forall_mem_cons] at h
    rw [List.flatMap_cons, List.append_assoc, List.singleton_append, pieces_append_cons,
      pieces_of_notMem h.1, ih h.2]
    rfl

/-- No piece holds the separator. -/
theorem notMem_of_mem_pieces (h : p ∈ pieces sep s) : sep ∉ p := by
  induction s generalizing p with
  | nil =>
    rw [pieces, List.mem_singleton] at h
    simp [h]
  | cons b s ih =>
    by_cases hb : b = sep
    · subst hb
      rw [pieces_cons_self, List.mem_cons] at h
      rcases h with rfl | h
      · simp
      · exact ih h
    · obtain ⟨q, qs, hq⟩ := List.exists_cons_of_ne_nil (pieces_ne_nil sep s)
      rw [pieces_cons_of_ne hb hq, List.mem_cons] at h
      rcases h with rfl | h
      · rw [List.mem_cons, not_or]
        exact ⟨Ne.symm hb, ih (hq ▸ List.mem_cons_self)⟩
      · exact ih (hq ▸ List.mem_cons_of_mem _ h)

variable (sep) in
/-- The pieces put back together. -/
theorem join_pieces (s : Bytes) : join [sep] (pieces sep s) = s := by
  induction s with
  | nil => rfl
  | cons b s ih =>
    obtain ⟨q, qs, hq⟩ := List.exists_cons_of_ne_nil (pieces_ne_nil sep s)
    rw [hq] at ih
    by_cases hb : b = sep
    · subst hb
      rw [pieces_cons_self, hq, join, ih]
      rfl
    · rw [pieces_cons_of_ne hb hq]
      cases qs with
      | nil => exact congrArg (b :: ·) ih
      | cons r rs => exact congrArg (b :: ·) ih

/-- Parts without the separator are the pieces of the text that they make. -/
theorem pieces_join {ps : List Bytes} (hps : ps ≠ []) (h : ∀ p ∈ ps, sep ∉ p) :
    pieces sep (join [sep] ps) = ps := by
  induction ps with
  | nil => exact absurd rfl hps
  | cons p ps ih =>
    rw [List.forall_mem_cons] at h
    cases ps with
    | nil => exact pieces_of_notMem h.1
    | cons q qs =>
      rw [join, List.append_assoc, List.singleton_append, pieces_append_cons, pieces_of_notMem h.1,
        ih (List.cons_ne_nil _ _) h.2]
      rfl

variable (sep) in
/-- The pieces of a text, but for the last, are pieces of every text that goes on behind it. -/
theorem dropLast_pieces_prefix (s t : Bytes) :
    (pieces sep s).dropLast <+: pieces sep (s ++ t) := by
  induction s with
  | nil => exact List.nil_prefix
  | cons b s ih =>
    by_cases hb : b = sep
    · subst hb
      rw [List.cons_append, pieces_cons_self, pieces_cons_self,
        List.dropLast_cons_of_ne_nil (pieces_ne_nil b s), List.prefix_cons_inj]
      exact ih
    · obtain ⟨p, ps, hp⟩ := List.exists_cons_of_ne_nil (pieces_ne_nil sep s)
      obtain ⟨q, qs, hq⟩ := List.exists_cons_of_ne_nil (pieces_ne_nil sep (s ++ t))
      rw [List.cons_append, pieces_cons_of_ne hb hp, pieces_cons_of_ne hb hq]
      rw [hp, hq] at ih
      cases ps with
      | nil => exact List.nil_prefix
      | cons r rs =>
        rw [List.dropLast_cons_cons, List.cons_prefix_cons] at ih ⊢
        exact ⟨congrArg (b :: ·) ih.1, ih.2⟩

/-- Texts with the same pieces are equal. -/
theorem eq_of_pieces_eq (h : pieces sep s = pieces sep t) : s = t := by
  rw [← join_pieces sep s, h, join_pieces]

/-- Different texts have different bytes. -/
@[simp] theorem ofString_inj {s t : String} : ofString s = ofString t ↔ s = t := by
  constructor
  · intro h
    have harray : s.toUTF8.data = t.toUTF8.data := Array.toList_inj.1 h
    exact String.toByteArray_inj.1 (ByteArray.ext harray)
  · rintro rfl
    rfl

/-- A word occurs in a text if the text goes on with it from some place. -/
theorem includes_iff : includes p s = true ↔ p <:+: s := by
  induction s with
  | nil => simp [includes]
  | cons b s ih => rw [includes, Bool.or_eq_true, ih, List.isPrefixOf_iff_prefix, List.infix_cons_iff]

/-! ## Order -/

/-- Sorting by a key puts the keys in order. -/
theorem pairwise_mergeSort_key {α : Type} (key : α → Bytes) (l : List α) :
    (l.mergeSort fun a b => decide (key a ≤ key b)).Pairwise fun a b => key a ≤ key b := by
  have h : (l.mergeSort fun a b => decide (key a ≤ key b)).Pairwise
      fun a b => decide (key a ≤ key b) = true :=
    List.pairwise_mergeSort (fun a b c hab hbc => by
      simp only [decide_eq_true_eq] at hab hbc ⊢
      exact List.le_trans hab hbc)
    (fun a b => by
      simp only [Bool.or_eq_true, decide_eq_true_eq]
      exact List.le_total (key a) (key b)) l
  exact h.imp fun h => by simpa using h

theorem mem_dropRepeats {l : List Bytes} {m : Bytes} : m ∈ dropRepeats l ↔ m ∈ l := by
  fun_induction dropRepeats l with
  | case1 => rfl
  | case2 => rfl
  | case3 a l ih =>
    rw [ih, List.mem_cons (a := m) (b := a) (l := a :: l), List.mem_cons, or_self_left]
  | case4 a b l hab ih => rw [List.mem_cons, ih, List.mem_cons (b := a)]

/-- On a list in order every string is kept once, so the order is strict. -/
theorem pairwise_dropRepeats {l : List Bytes} (h : l.Pairwise (· ≤ ·)) :
    (dropRepeats l).Pairwise (· < ·) := by
  fun_induction dropRepeats l with
  | case1 => exact .nil
  | case2 a => exact List.pairwise_singleton _ _
  | case3 a l ih => exact ih h.of_cons
  | case4 a b l hab ih =>
    obtain ⟨hhead, htail⟩ := List.pairwise_cons.1 h
    refine List.pairwise_cons.2 ⟨fun m hm => ?_, ih htail⟩
    have hle : a ≤ b := hhead b List.mem_cons_self
    have hlt : a < b := Std.lt_of_le_of_ne hle hab
    rcases List.mem_cons.1 (mem_dropRepeats.1 hm) with rfl | hm
    · exact hlt
    · exact Std.lt_of_lt_of_le hlt ((List.pairwise_cons.1 htail).1 m hm)

/-- The distinct strings of a list, in order. -/
theorem dropRepeats_sorted (l : List Bytes) :
    (dropRepeats (sorted l)).Pairwise (· < ·) ∧ ∀ m, m ∈ dropRepeats (sorted l) ↔ m ∈ l :=
  ⟨pairwise_dropRepeats (pairwise_mergeSort_key id l), fun m => by
    rw [mem_dropRepeats, sorted, List.mem_mergeSort]⟩

/-- Strings in strict order are known by which they are. -/
theorem eq_of_pairwise_lt {l l' : List Bytes} (hl : l.Pairwise (· < ·))
    (hl' : l'.Pairwise (· < ·)) (h : ∀ m, m ∈ l ↔ m ∈ l') : l = l' := by
  have hperm : l.Perm l' :=
    (List.perm_ext_iff_of_nodup (hl.imp Std.ne_of_lt) (hl'.imp Std.ne_of_lt)).2 h
  exact hperm.eq_of_pairwise (fun a b _ _ hab hba => absurd hba (Std.not_gt_of_lt hab)) hl hl'

/-! ## Digits -/

/-- What holds of the numbers below a bound holds of the bytes below it. -/
theorem of_toNat_lt {P : UInt8 → Prop} {k : Nat} (h : ∀ n < k, P (UInt8.ofNat n)) {b : UInt8}
    (hb : b.toNat < k) : P b := by
  have hP := h b.toNat hb
  rwa [UInt8.ofNat_toNat] at hP

/-- What holds of every hexadecimal digit holds of those of a byte. -/
theorem of_mem_hex {P : UInt8 → Prop} (h : ∀ n < 16, P (hexDigit (UInt8.ofNat n))) {b d : UInt8}
    (hd : d ∈ hex b) : P d := by
  have hhigh : (b >>> 4).toNat < 16 := by
    have hb := b.toNat_lt
    simp [Nat.shiftRight_eq_div_pow]
    omega
  have hlow : (b &&& 0xf).toNat < 16 := by
    rw [UInt8.toNat_and]
    exact Nat.lt_of_le_of_lt Nat.and_le_right (by decide)
  rcases List.mem_cons.1 hd with rfl | hd
  · exact of_toNat_lt (P := fun n => P (hexDigit n)) h hhigh
  · cases List.mem_singleton.1 hd
    exact of_toNat_lt (P := fun n => P (hexDigit n)) h hlow

theorem isDigit_of_mem_digits {b : UInt8} {n : Nat} (h : b ∈ digits n) : isDigit b = true := by
  obtain ⟨c, hc, rfl⟩ := List.mem_map.1 h
  have hdigit := Nat.isDigit_of_mem_toDigits (by decide) (by decide) hc
  simp only [Char.isDigit, Bool.and_eq_true, decide_eq_true_eq] at hdigit
  have hlow : 48 ≤ c.toNat := hdigit.1
  have hhigh : c.toNat ≤ 57 := hdigit.2
  have hnat : c.toUInt8.toNat = c.toNat := Nat.mod_eq_of_lt (show c.toNat < 256 by omega)
  simp only [isDigit, Bool.and_eq_true, decide_eq_true_eq, UInt8.le_iff_toNat_le, hnat]
  exact ⟨hlow, hhigh⟩

theorem digits_of_lt {n : Nat} (h : n < 10) : digits n = [UInt8.ofNat (0x30 + n)] := by
  have hall : ∀ n < 10, digits n = [UInt8.ofNat (0x30 + n)] := by decide +kernel
  exact hall n h

/-- Only the last digit is the remainder by ten. -/
theorem digits_of_le {n : Nat} (h : 10 ≤ n) :
    digits n = digits (n / 10) ++ [UInt8.ofNat (0x30 + n % 10)] := by
  rw [← digits_of_lt (Nat.mod_lt n (by decide)), digits, Nat.toDigits_of_base_le (by decide) h,
    List.map_append, digits, digits, Nat.toDigits_of_lt_base (Nat.mod_lt n (by decide))]

/-- A number is built up from its digits as they are read, whatever reads one digit. -/
theorem foldl_digits {f : UInt8 → Nat} (hf : ∀ d < 10, f (UInt8.ofNat (0x30 + d)) = d) (n : Nat) :
    (digits n).foldl (fun m b => 10 * m + f b) 0 = n := by
  induction n using Nat.strongRecOn with
  | ind n ih =>
    by_cases hn : n < 10
    · rw [digits_of_lt hn, List.foldl_cons, List.foldl_nil, hf n hn]
      omega
    · rw [digits_of_le (by omega), List.foldl_append, ih (n / 10) (by omega), List.foldl_cons,
        List.foldl_nil, hf _ (Nat.mod_lt n (by decide))]
      omega

theorem digits_ne_nil (n : Nat) : digits n ≠ [] := by
  simp [digits, Nat.toDigits_ne_nil]

/-- Only zero starts with a zero. -/
theorem digits_cons (n : Nat) : ∃ d rest, digits n = UInt8.ofNat (0x30 + d) :: rest ∧ d < 10 ∧
    (d = 0 → n = 0) := by
  induction n using Nat.strongRecOn with
  | ind n ih =>
    by_cases hn : n < 10
    · exact ⟨n, [], digits_of_lt hn, hn, id⟩
    · obtain ⟨d, rest, hdigits, hd, hzero⟩ := ih (n / 10) (by omega)
      refine ⟨d, _, by rw [digits_of_le (by omega), hdigits, List.cons_append], hd, fun h0 => ?_⟩
      have := hzero h0
      omega

/-- A number is read back from its digits. -/
theorem natural?_digits (n : Nat) : natural? (digits n) = some n := by
  have hall : (digits n).all isDigit = true :=
    List.all_eq_true.2 fun b hb => isDigit_of_mem_digits hb
  have hvalue := foldl_digits (f := fun b => b.toNat - 0x30) (by decide) n
  simp [natural?, hall, digits_ne_nil, hvalue]

/-- A byte that is no digit and no sign is in no number. -/
theorem notMem_decimal {b : UInt8} (hdigit : isDigit b = false) (hsign : b ≠ 0x2d) (n : Int) :
    b ∉ decimal n := by
  have hdigits : ∀ n : Nat, b ∉ digits n := fun n h =>
    Bool.false_ne_true (hdigit.symm.trans (isDigit_of_mem_digits h))
  cases n with
  | ofNat n => exact hdigits n
  | negSucc n =>
    rw [decimal, List.mem_cons, not_or]
    exact ⟨hsign, hdigits (n + 1)⟩

end Bytes

end ClusterEvidence
